import XmlInspect.Pattern.Table
import XmlInspect.Proofs.Tokens
import XmlInspect.Query.Lex

/-!
# Where a token of a query ends

What a character starts may depend on the one behind it, and a name looks even two characters ahead,
to leave the two colons of an axis alone. So a token is not read from its own characters only, and
what comes next could change it. It does not if it *follows like* what came next before: if it
starts with a blank, or with the same character. Only a colon has to be looked at together with the
character behind it.

Blanks are of no use to any reader, which is a fact about tables of characters: no letter and no
number of any script is a blank.
-/

namespace XmlInspect

/-! ## Blanks in names and numbers -/

namespace Text

variable {c : Char}

/-- No range of one table meets a range of the other. -/
def RangeTable.apart (table other : RangeTable) : Bool :=
  table.all fun range ↦ other.all fun range' ↦ range.2 < range'.1 || range'.2 < range.1

theorem RangeTable.contains_eq_false_of_apart {table other : RangeTable}
    (h : table.apart other = true) (hc : other.contains c = true) : table.contains c = false := by
  refine Bool.eq_false_iff.2 fun htable ↦ ?_
  obtain ⟨range, hrange, hlow, hhigh⟩ := contains_iff.1 htable
  obtain ⟨range', hrange', hlow', hhigh'⟩ := contains_iff.1 hc
  have hpair := List.all_eq_true.1 (List.all_eq_true.1 h range hrange) range' hrange'
  simp only [Bool.or_eq_true, decide_eq_true_eq] at hpair
  omega

private theorem isLetter_eq_false_of_isBlank (h : isBlank c = true) : isLetter c = false :=
  RangeTable.contains_eq_false_of_apart (by decide +kernel) ((contains_blankTable c).trans h)

private theorem isNumeric_eq_false_of_isBlank (h : isBlank c = true) : isNumeric c = false :=
  RangeTable.contains_eq_false_of_apart (by decide +kernel) ((contains_blankTable c).trans h)

end Text

namespace Query

open Text (isBlank)

variable {c first : Char} {text tail rest other name : List Char} {offset : Nat} {token : Token}
  {afterOperand : Bool}

theorem continuesName_eq_false_of_isBlank (h : isBlank c = true) : continuesName c = false := by
  have hpunctuation : (c == '_' || c == '-' || c == '.') = false := by
    refine Bool.eq_false_iff.2 fun hc ↦ ?_
    simp only [Bool.or_eq_true, beq_iff_eq] at hc
    rcases hc with (rfl | rfl) | rfl <;> cases h
  rw [continuesName, Bool.or_assoc, Bool.or_assoc, ← Bool.or_assoc (c == '_'), hpunctuation,
    Text.isLetterOrNumber, Text.isLetter_eq_false_of_isBlank h,
    Text.isNumeric_eq_false_of_isBlank h]
  rfl

theorem toNat_of_isDigit (h : c.isDigit = true) : 48 ≤ c.toNat ∧ c.toNat ≤ 57 := by
  simp only [Char.isDigit, Bool.and_eq_true, decide_eq_true_eq] at h
  exact h

theorem isDigit_eq_false_of_isBlank (h : isBlank c = true) : c.isDigit = false := by
  refine Bool.eq_false_iff.2 fun hc ↦ ?_
  have hcode := toNat_of_isDigit hc
  simp only [isBlank, Bool.or_eq_true, Bool.and_eq_true, decide_eq_true_eq, beq_iff_eq] at h
  omega

private theorem continuesNumber_eq_false_of_isBlank (h : isBlank c = true) :
    continuesNumber c = false := by
  rw [continuesNumber, isDigit_eq_false_of_isBlank h, Bool.false_or, beq_eq_false_iff_ne]
  rintro rfl
  cases h

/-! ## Punctuation -/

/-- The characters that start tokens of fixed spelling, though some of them only before certain
others: `!`, `(` to `/`, `:`, `<` to `>`, `@`, `[`, `]` and `|`. -/
def punctuation : Text.RangeTable := [
  (0x21, 0x21), (0x28, 0x2F), (0x3A, 0x3A), (0x3C, 0x3E), (0x40, 0x40), (0x5B, 0x5B), (0x5D, 0x5D),
  (0x7C, 0x7C)]

def isPunctuation (c : Char) : Bool := punctuation.contains c

theorem startsName_of_isPunctuation (h : isPunctuation c = true) : startsName c = false := by
  have hletter : Text.isLetter c = false :=
    Text.RangeTable.contains_eq_false_of_apart (by decide +kernel) h
  rw [startsName, hletter, Bool.false_or, beq_eq_false_iff_ne]
  rintro rfl
  cases h

private theorem isDigit_of_isPunctuation (h : isPunctuation c = true) : c.isDigit = false := by
  refine Bool.eq_false_iff.2 fun hc ↦ ?_
  have hcode := toNat_of_isDigit hc
  obtain ⟨range, hrange, hlow, hhigh⟩ := Text.RangeTable.contains_iff.1 h
  have hapart : ∀ range ∈ punctuation, range.2 < 48 ∨ 57 < range.1 := by decide
  have := hapart range hrange
  omega

/-! ## What follows a token -/

/-- A text may follow a token in place of another one: it starts with a blank, if with anything, or
as the other one does. A colon says nothing without the character behind it. -/
def FollowsLike (other rest : List Char) : Prop :=
  other.head?.all isBlank = true ∨
    other.head? = rest.head? ∧ (rest.head? = some ':' → other[1]? = rest[1]?)

namespace FollowsLike

theorem refl (rest : List Char) : FollowsLike rest rest := .inr ⟨rfl, fun _ ↦ rfl⟩

/-- Before a blank a reader stops where it stopped before. -/
theorem head?_all {p : Char → Bool} (h : FollowsLike other rest)
    (hblank : ∀ {c}, isBlank c = true → p c = false) (hrest : rest.head?.all (!p ·) = true) :
    other.head?.all (!p ·) = true := by
  rcases h with h | ⟨h, -⟩
  · cases hhead : other.head? with
    | none => rfl
    | some c =>
      rw [hhead] at h
      rw [Option.all_some, hblank h]
      rfl
  · rwa [h]

/-- A character that is not blank does not start a text that takes the place of another one, unless
it starts that one. -/
theorem head?_ne (h : FollowsLike other rest) (hc : isBlank c = false)
    (hrest : rest.head? ≠ some c) : other.head? ≠ some c := by
  rcases h with h | ⟨h, -⟩
  · intro hhead
    rw [hhead, Option.all_some, hc] at h
    cases h
  · rwa [h]

private theorem ne_cons (h : FollowsLike other rest) (hc : isBlank c = false)
    (hrest : ∀ after, rest = c :: after → False) (after : List Char) : ¬ other = c :: after := by
  intro hother
  refine h.head?_ne hc (fun hhead ↦ ?_) (hother ▸ rfl)
  obtain ⟨after, hafter⟩ := List.head?_eq_some_iff.1 hhead
  exact hrest after hafter

end FollowsLike

theorem head?_dropWhile_all (p : Char → Bool) (text : List Char) :
    (text.dropWhile p).head?.all (!p ·) = true := by
  induction text with
  | nil => rfl
  | cons c text ih =>
    by_cases hc : p c = true
    · rwa [List.dropWhile_cons_of_pos hc]
    · rw [List.dropWhile_cons_of_neg hc, List.head?_cons, Option.all_some]
      simpa using hc

theorem span_append {p : Char → Bool} (htail : tail.all p = true)
    (hrest : rest.head?.all (!p ·) = true) :
    (tail ++ rest).takeWhile p = tail ∧ (tail ++ rest).dropWhile p = rest := by
  refine Text.span_eq (List.all_eq_true.1 htail) fun c hc ↦ ?_
  rw [Option.mem_def.1 hc] at hrest
  simpa using hrest

/-! ## One token -/

/-- What a reader finds when it takes `tail` from the front of a text, whatever comes next as long
as it follows like `rest`. -/
def ReadsBefore {α : Type} (read : List Char → Except Fault (α × List Char)) (a : α)
    (tail rest : List Char) : Prop :=
  ∀ other, FollowsLike other rest → read (tail ++ other) = .ok (a, other)

private theorem readsBefore_lexNumber (h : lexNumber first text = .ok (token, rest)) :
    text.dropWhile continuesNumber = rest ∧
      ReadsBefore (lexNumber first) token (text.takeWhile continuesNumber) rest := by
  obtain ⟨value, hvalue, rfl, rfl⟩ : ∃ value,
      Number.readDecimal? (first :: text.takeWhile continuesNumber) = some value ∧
        token = .number value ∧ rest = text.dropWhile continuesNumber := by
    unfold lexNumber at h
    dsimp only at h
    split at h
    · cases h
      exact ⟨_, ‹_›, rfl, rfl⟩
    · cases h
  refine ⟨rfl, fun other hother ↦ ?_⟩
  have hstop := hother.head?_all continuesNumber_eq_false_of_isBlank
    (head?_dropWhile_all continuesNumber text)
  obtain ⟨htake, hdrop⟩ := span_append List.all_takeWhile hstop
  rw [lexNumber, htake, hdrop, hvalue]

private theorem exists_lexLiteral {quote : Char} (h : lexLiteral quote text = .ok (token, rest)) :
    ∃ tail, text = tail ++ rest ∧ ReadsBefore (lexLiteral quote) token tail rest := by
  obtain ⟨literal, hcut, rfl⟩ : ∃ literal, Text.cutAt [quote] text = some (literal, rest) ∧
      token = .literal (String.ofList literal) := by
    unfold lexLiteral at h
    split at h
    · cases h
      exact ⟨_, ‹_›, rfl⟩
    · cases h
  refine ⟨literal ++ [quote], Text.eq_append_of_cutAt hcut, fun other _ ↦ ?_⟩
  rw [lexLiteral, Text.cutAt_replace hcut]

/-! ### Names -/

theorem colon_stops (after : List Char) :
    (':' :: after).head?.all (!continuesName ·) = true := by
  rw [List.head?_cons, Option.all_some]
  decide +kernel

private theorem head?_ne_colon_of_lexLocalName? {localName : List Char}
    (h : lexLocalName? text = some (localName, rest)) : text.head? ≠ some ':' := by
  intro hhead
  obtain ⟨after, rfl⟩ := List.head?_eq_some_iff.1 hhead
  have hcolon : startsName ':' = false := startsName_of_isPunctuation rfl
  simp [lexLocalName?, hcolon] at h

private theorem lexName_of_ne_colon (offset : Nat) (htail : tail.all continuesName = true)
    (hrest : rest.head?.all (!continuesName ·) = true) (hcolon : rest.head? ≠ some ':') :
    lexName offset first (tail ++ rest) = .ok (first :: tail, rest) := by
  obtain ⟨htake, hdrop⟩ := span_append htail hrest
  unfold lexName
  simp only [htake, hdrop]
  split
  · exact absurd rfl hcolon
  · rfl

theorem lexName_of_colons (offset : Nat) (htail : tail.all continuesName = true)
    (after : List Char) :
    lexName offset first (tail ++ ':' :: ':' :: after) =
      .ok (first :: tail, ':' :: ':' :: after) := by
  obtain ⟨htake, hdrop⟩ := span_append htail (colon_stops (':' :: after))
  unfold lexName
  simp only [htake, hdrop]

theorem lexName_of_lexLocalName? {after localName : List Char} (offset : Nat)
    (htail : tail.all continuesName = true) (h : lexLocalName? after = some (localName, rest)) :
    lexName offset first (tail ++ ':' :: after) =
      .ok (first :: tail ++ ':' :: localName, rest) := by
  obtain ⟨htake, hdrop⟩ := span_append htail (colon_stops after)
  have hcolon := head?_ne_colon_of_lexLocalName? h
  unfold lexName
  simp only [htake, hdrop]
  split
  · exact absurd rfl hcolon
  · rw [h]

private theorem exists_of_lexName_colon {after : List Char} (htail : tail.all continuesName = true)
    (hpair : after.head? ≠ some ':')
    (h : lexName offset first (tail ++ ':' :: after) = .ok (name, rest)) :
    ∃ localName, lexLocalName? after = some (localName, rest) ∧
      name = first :: tail ++ ':' :: localName := by
  cases hlocal : lexLocalName? after with
  | some found =>
    obtain ⟨localName, rest'⟩ := found
    rw [lexName_of_lexLocalName? offset htail hlocal] at h
    cases h
    exact ⟨localName, rfl, rfl⟩
  | none =>
    obtain ⟨htake, hdrop⟩ := span_append htail (colon_stops after)
    unfold lexName at h
    simp only [htake, hdrop, hlocal] at h
    split at h
    · exact absurd rfl hpair
    · cases h

/-- The part behind the colon ends where a name does, or with a star. -/
theorem readsBefore_lexLocalName? {localName : List Char}
    (h : lexLocalName? text = some (localName, rest)) :
    text = localName ++ rest ∧ ∀ other, FollowsLike other rest →
      lexLocalName? (localName ++ other) = some (localName, other) := by
  unfold lexLocalName? at h
  split at h
  · cases h
    exact ⟨rfl, fun _ _ ↦ rfl⟩
  · rename_i c after hstar
    split at h
    · rename_i hstarts
      cases h
      refine ⟨by simp, fun other hother ↦ ?_⟩
      have htail : (after.takeWhile continuesName).all continuesName = true := List.all_takeWhile
      obtain ⟨htake, hdrop⟩ := span_append htail (hother.head?_all
        continuesName_eq_false_of_isBlank (head?_dropWhile_all continuesName after))
      rw [List.cons_append, lexLocalName?.eq_2 _ _ hstar, if_pos hstarts, htake, hdrop]
    · cases h
  · cases h

/-- A name is read alike wherever it stands, before whatever follows like what followed it. -/
theorem exists_lexName (h : lexName offset first text = .ok (name, rest)) :
    ∃ tail, text = tail ++ rest ∧
      ∀ offset', ReadsBefore (lexName offset' first) name tail rest := by
  have htail : (text.takeWhile continuesName).all continuesName = true := List.all_takeWhile
  have hstop := head?_dropWhile_all continuesName text
  have htext : text.takeWhile continuesName ++ text.dropWhile continuesName = text :=
    List.takeWhile_append_dropWhile
  generalize text.takeWhile continuesName = tail at htail htext
  generalize text.dropWhile continuesName = after at hstop htext
  subst htext
  -- Before a blank the first part is all there is to the name.
  have halone {other : List Char} (offset' : Nat) (hother : FollowsLike other after)
      (hcolon : other.head? ≠ some ':') :
      lexName offset' first (tail ++ other) = .ok (first :: tail, other) :=
    lexName_of_ne_colon offset' htail (hother.head?_all continuesName_eq_false_of_isBlank hstop)
      hcolon
  by_cases hcolon : after.head? = some ':'
  · obtain ⟨after, rfl⟩ := List.head?_eq_some_iff.1 hcolon
    by_cases hpair : after.head? = some ':'
    · obtain ⟨after, rfl⟩ := List.head?_eq_some_iff.1 hpair
      rw [lexName_of_colons offset htail] at h
      cases h
      refine ⟨tail, rfl, fun offset' other hother ↦ ?_⟩
      by_cases hhead : other.head? = some ':'
      · obtain ⟨second, rfl⟩ := List.head?_eq_some_iff.1 hhead
        rcases hother with hblank | ⟨-, hsecond⟩
        · cases hblank
        · have hhead : second.head? = some ':' := List.head?_eq_getElem?.trans (hsecond rfl)
          obtain ⟨last, rfl⟩ := List.head?_eq_some_iff.1 hhead
          exact lexName_of_colons offset' htail last
      · exact halone offset' hother hhead
    · obtain ⟨localName, hlocal, rfl⟩ := exists_of_lexName_colon htail hpair h
      obtain ⟨rfl, hreads⟩ := readsBefore_lexLocalName? hlocal
      refine ⟨tail ++ ':' :: localName, by simp, fun offset' other hother ↦ ?_⟩
      rw [List.append_assoc]
      exact lexName_of_lexLocalName? offset' htail (hreads other hother)
  · rw [lexName_of_ne_colon offset htail hstop hcolon] at h
    cases h
    exact ⟨tail, rfl, fun offset' other hother ↦
      halone offset' hother (hother.head?_ne (by decide) hcolon)⟩

/-! ### Fixed spellings -/

private theorem startsWithDigit_eq_false_iff :
    startsWithDigit text = false ↔ text.head?.all (!Char.isDigit ·) = true := by
  cases text with
  | nil => simp [startsWithDigit]
  | cons c text => simp [startsWithDigit]

/-- A point starts a number exactly before a digit. -/
theorem fixedToken?_point_eq_none_iff :
    fixedToken? afterOperand '.' text = none ↔ startsWithDigit text = true := by
  by_cases hpair : text.head? = some '.'
  · obtain ⟨after, rfl⟩ := List.head?_eq_some_iff.1 hpair
    exact iff_of_false nofun (by simp [startsWithDigit])
  · have hnext (after : List Char) : text = '.' :: after → False := fun h ↦ hpair (h ▸ rfl)
    rw [fixedToken?.eq_21 _ _ hnext]
    by_cases hdigit : startsWithDigit text = true
    · simp [hdigit]
    · simp [hdigit]

/-- A token of fixed spelling starts with punctuation, and with a colon only before another one. It
takes one character or two, and these tell what it is unless the next one would belong to it. -/
theorem exists_fixedToken? {further : Nat}
    (h : fixedToken? afterOperand c text = some (token, further)) :
    isPunctuation c = true ∧ (c = ':' → text = ':' :: text.drop further) ∧
      ∃ tail, text = tail ++ text.drop further ∧ ∀ other, FollowsLike other (text.drop further) →
        fixedToken? afterOperand c (tail ++ other) = some (token, tail.length) := by
  unfold fixedToken? at h
  split at h
  -- Two characters.
  case h_18 =>
    cases h
    exact ⟨rfl, fun _ ↦ rfl, [_], rfl, fun _ _ ↦ rfl⟩
  case h_1 | h_13 | h_14 | h_16 | h_20 =>
    cases h
    exact ⟨rfl, nofun, [_], rfl, fun _ _ ↦ rfl⟩
  -- One character, which would not stand alone before certain others.
  case h_2 hnext =>
    cases h
    refine ⟨rfl, nofun, [], rfl, fun other hother ↦ ?_⟩
    exact fixedToken?.eq_2 _ _ (hother.ne_cons (by decide) hnext)
  case h_15 hnext =>
    cases h
    refine ⟨rfl, nofun, [], rfl, fun other hother ↦ ?_⟩
    exact fixedToken?.eq_15 _ _ (hother.ne_cons (by decide) hnext)
  case h_17 hnext =>
    cases h
    refine ⟨rfl, nofun, [], rfl, fun other hother ↦ ?_⟩
    exact fixedToken?.eq_17 _ _ (hother.ne_cons (by decide) hnext)
  case h_21 hnext =>
    by_cases hdigit : startsWithDigit text = true
    · rw [if_pos hdigit] at h
      cases h
    · rw [if_neg hdigit] at h
      cases h
      refine ⟨rfl, nofun, [], rfl, fun other hother ↦ ?_⟩
      have hother' : startsWithDigit other = false := by
        rw [startsWithDigit_eq_false_iff]
        refine hother.head?_all isDigit_eq_false_of_isBlank (startsWithDigit_eq_false_iff.1 ?_)
        exact Bool.eq_false_iff.2 hdigit
      rw [List.nil_append, fixedToken?.eq_21 _ _ (hother.ne_cons (by decide) hnext), hother']
      rfl
  case h_22 => cases h
  -- One character, whatever comes next.
  all_goals
    cases h
    exact ⟨rfl, nofun, [], rfl, fun _ _ ↦ rfl⟩

/-! ### Any token -/

theorem fixedToken?_eq_none (afterOperand : Bool) (text : List Char)
    (h : isPunctuation c = false) : fixedToken? afterOperand c text = none := by
  refine Option.eq_none_iff_forall_ne_some.2 fun ⟨token, further⟩ hsome ↦ ?_
  rw [(exists_fixedToken? hsome).1] at h
  cases h

/-- A token that is spelled freely keeps apart from those of fixed spelling whatever follows it. -/
theorem fixedToken?_takeWhile (hfixed : fixedToken? afterOperand c text = none)
    (hc : continuesNumber c = true) (other : List Char) :
    fixedToken? afterOperand c (text.takeWhile continuesNumber ++ other) = none := by
  rcases Bool.or_eq_true_iff.1 hc with hdigit | hpoint
  · refine fixedToken?_eq_none _ _ (Bool.eq_false_iff.2 fun hpunctuation ↦ ?_)
    rw [isDigit_of_isPunctuation hpunctuation] at hdigit
    cases hdigit
  · obtain rfl := beq_iff_eq.1 hpoint
    have hdigit := fixedToken?_point_eq_none_iff.1 hfixed
    refine fixedToken?_point_eq_none_iff.2 ?_
    cases text with
    | nil => cases hdigit
    | cons d text =>
      have hd : continuesNumber d = true := Bool.or_eq_true_iff.2 (.inl hdigit)
      rwa [List.takeWhile_cons_of_pos hd]

/-- The quotes around literals. -/
def isQuote (c : Char) : Bool := c == '"' || c == '\''

theorem lexToken_of_some {further : Nat} (offset : Nat)
    (h : fixedToken? afterOperand c text = some (token, further)) :
    lexToken afterOperand offset c text = .ok (token, text.drop further) := by
  rw [lexToken, h]

/-- Whatever has no fixed spelling is known by its first character. -/
theorem lexToken_of_none (offset : Nat) (h : fixedToken? afterOperand c text = none) :
    lexToken afterOperand offset c text =
      if isQuote c then lexLiteral c text
      else if continuesNumber c then lexNumber c text
      else if startsName c then
        (lexName offset c text).map fun (name, rest) ↦ (nameToken afterOperand name, rest)
      else .error (.unexpectedChar c) := by
  rw [lexToken, h]
  cases lexName offset c text <;> rfl

private theorem lexToken_of_isQuote (offset : Nat) (hc : isQuote c = true) (text : List Char) :
    lexToken afterOperand offset c text = lexLiteral c text := by
  have hpunctuation : isPunctuation c = false := by
    rcases Bool.or_eq_true_iff.1 hc with hc | hc <;> obtain rfl := beq_iff_eq.1 hc <;> decide
  rw [lexToken_of_none offset (fixedToken?_eq_none _ _ hpunctuation), if_pos hc]

private theorem lexToken_of_continuesNumber (offset : Nat) (hquote : isQuote c = false)
    (hc : continuesNumber c = true) (hfixed : fixedToken? afterOperand c text = none) :
    lexToken afterOperand offset c text = lexNumber c text := by
  rw [lexToken_of_none offset hfixed, if_neg (Bool.eq_false_iff.1 hquote), if_pos hc]

theorem lexToken_of_startsName (hquote : isQuote c = false) (hnumber : continuesNumber c = false)
    (hc : startsName c = true) (h : lexName offset c text = .ok (name, rest)) :
    lexToken afterOperand offset c text = .ok (nameToken afterOperand name, rest) := by
  have hpunctuation : isPunctuation c = false := by
    refine Bool.eq_false_iff.2 fun hpunctuation ↦ ?_
    rw [startsName_of_isPunctuation hpunctuation] at hc
    cases hc
  rw [lexToken_of_none offset (fixedToken?_eq_none _ _ hpunctuation),
    if_neg (Bool.eq_false_iff.1 hquote), if_neg (Bool.eq_false_iff.1 hnumber), if_pos hc, h]
  rfl

/-- The ways in which a token is read. -/
theorem lexToken_cases (h : lexToken afterOperand offset c text = .ok (token, rest)) :
    (∃ further, fixedToken? afterOperand c text = some (token, further) ∧
      rest = text.drop further) ∨
    (isQuote c = true ∧ lexLiteral c text = .ok (token, rest)) ∨
    (isQuote c = false ∧ continuesNumber c = true ∧ fixedToken? afterOperand c text = none ∧
      lexNumber c text = .ok (token, rest)) ∨
    (isQuote c = false ∧ continuesNumber c = false ∧ startsName c = true ∧
      ∃ name, lexName offset c text = .ok (name, rest) ∧ token = nameToken afterOperand name) := by
  cases hfixed : fixedToken? afterOperand c text with
  | some fixed =>
    rw [lexToken_of_some offset hfixed] at h
    cases h
    exact .inl ⟨_, rfl, rfl⟩
  | none =>
    rw [lexToken_of_none offset hfixed] at h
    by_cases hquote : isQuote c = true
    · rw [if_pos hquote] at h
      exact .inr (.inl ⟨hquote, h⟩)
    rw [if_neg hquote] at h
    rw [Bool.not_eq_true] at hquote
    by_cases hnumber : continuesNumber c = true
    · rw [if_pos hnumber] at h
      exact .inr (.inr (.inl ⟨hquote, hnumber, rfl, h⟩))
    rw [if_neg hnumber] at h
    rw [Bool.not_eq_true] at hnumber
    by_cases hname : startsName c = true
    · rw [if_pos hname] at h
      obtain ⟨⟨name, rest⟩, hread, heq⟩ := map_eq_ok_iff.1 h
      cases heq
      exact .inr (.inr (.inr ⟨hquote, hnumber, hname, name, hread, rfl⟩))
    · rw [if_neg hname] at h
      cases h

/-- A token is read alike wherever it stands, before whatever follows like what followed it. -/
theorem exists_lexToken (h : lexToken afterOperand offset c text = .ok (token, rest)) :
    ∃ tail, text = tail ++ rest ∧
      ∀ offset', ReadsBefore (lexToken afterOperand offset' c) token tail rest := by
  rcases lexToken_cases h with ⟨further, hfixed, rfl⟩ | ⟨hquote, hliteral⟩ |
    ⟨hquote, hc, hfixed, hnumber⟩ | ⟨hquote, hnumber, hc, name, hname, rfl⟩
  · obtain ⟨-, -, tail, htext, hreads⟩ := exists_fixedToken? hfixed
    refine ⟨tail, htext, fun offset' other hother ↦ ?_⟩
    rw [lexToken_of_some offset' (hreads other hother), List.drop_left]
  · obtain ⟨tail, htext, hreads⟩ := exists_lexLiteral hliteral
    refine ⟨tail, htext, fun offset' other hother ↦ ?_⟩
    rw [lexToken_of_isQuote offset' hquote, hreads other hother]
  · obtain ⟨rfl, hreads⟩ := readsBefore_lexNumber hnumber
    refine ⟨_, List.takeWhile_append_dropWhile.symm, fun offset' other hother ↦ ?_⟩
    rw [lexToken_of_continuesNumber offset' hquote hc (fixedToken?_takeWhile hfixed hc other),
      hreads other hother]
  · obtain ⟨tail, htext, hreads⟩ := exists_lexName hname
    exact ⟨tail, htext, fun offset' other hother ↦
      lexToken_of_startsName hquote hnumber hc (hreads offset' other hother)⟩

/-- A colon is read with the one behind it. -/
theorem eq_cons_of_lexToken_colon (h : lexToken afterOperand offset ':' text = .ok (token, rest)) :
    text = ':' :: rest := by
  have hcolon : startsName ':' = false := startsName_of_isPunctuation rfl
  rcases lexToken_cases h with ⟨further, hfixed, rfl⟩ | ⟨hquote, -⟩ | ⟨-, hnumber, -⟩ |
    ⟨-, -, hname, -⟩
  · exact (exists_fixedToken? hfixed).2.1 rfl
  · cases hquote
  · cases hnumber
  · rw [hcolon] at hname
    cases hname

end Query

end XmlInspect
