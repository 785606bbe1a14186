/-!
# Cutting text

Text is a list of characters here, and every offset is a number of UTF-8 bytes. The two meet in
`byteSize`: the offset of a place in a text is the size of what stands before it, so a cut
`text = before ++ after` carries its own offset and no index ever has to be kept inside a
character. The searches below return the two sides of such a cut.
-/

namespace XmlInspect.Text

/-- The character that marks the head of a text. -/
def byteOrderMark : Char := '\uFEFF'

/-! ## Sizes -/

/-- The number of bytes that a text takes in UTF-8. -/
def byteSize : List Char → Nat
  | [] => 0
  | c :: rest => c.utf8Size + byteSize rest

@[simp] theorem byteSize_nil : byteSize [] = 0 := rfl

@[simp] theorem byteSize_cons (c : Char) (text : List Char) :
    byteSize (c :: text) = c.utf8Size + byteSize text := rfl

@[simp] theorem byteSize_append (a b : List Char) : byteSize (a ++ b) = byteSize a + byteSize b := by
  induction a with
  | nil => simp
  | cons c a ih => simp [ih, Nat.add_assoc]

/-- Every character takes at least one byte, so only the empty text has size zero. -/
theorem byteSize_eq_zero_iff {text : List Char} : byteSize text = 0 ↔ text = [] := by
  cases text with
  | nil => simp
  | cons c text => simp [Nat.ne_of_gt c.utf8Size_pos]

/-- What is left after the first `n` bytes, unless the `n`-th byte falls inside a character or
beyond the end. -/
def dropBytes? : Nat → List Char → Option (List Char)
  | 0, text => some text
  | _ + 1, [] => none
  | n + 1, c :: rest => if c.utf8Size ≤ n + 1 then dropBytes? (n + 1 - c.utf8Size) rest else none

theorem dropBytes?_byteSize_append (a b : List Char) : dropBytes? (byteSize a) (a ++ b) = some b := by
  induction a with
  | nil => simp [dropBytes?]
  | cons c a ih =>
    have hc := c.utf8Size_pos
    obtain ⟨n, hn⟩ : ∃ n, c.utf8Size + byteSize a = n + 1 := ⟨c.utf8Size + byteSize a - 1, by omega⟩
    simp only [byteSize_cons, List.cons_append, hn, dropBytes?]
    rw [if_pos (by omega), ← hn, Nat.add_sub_cancel_left, ih]

/-! ## Words at the front -/

/-- What follows `word` at the front of a text, if the text starts with it. -/
def stripStart? : List Char → List Char → Option (List Char)
  | [], text => some text
  | _ :: _, [] => none
  | w :: word, c :: text => if w = c then stripStart? word text else none

theorem stripStart?_eq_some_iff {word text rest : List Char} :
    stripStart? word text = some rest ↔ text = word ++ rest := by
  induction word generalizing text with
  | nil => simp [stripStart?]
  | cons w word ih =>
    cases text with
    | nil => simp [stripStart?]
    | cons c text =>
      by_cases h : w = c
      · simp [stripStart?, h, ih]
      · simp [stripStart?, h, Ne.symm h]

/-- Whether a text starts with `word`. -/
def startsWith (word text : List Char) : Bool := (stripStart? word text).isSome

theorem startsWith_iff {word text : List Char} :
    startsWith word text = true ↔ ∃ rest, text = word ++ rest := by
  simp [startsWith, Option.isSome_iff_exists, stripStart?_eq_some_iff]

theorem suffix_of_stripStart? {word text rest : List Char} (h : stripStart? word text = some rest) :
    rest <:+ text :=
  ⟨word, (stripStart?_eq_some_iff.1 h).symm⟩

/-! ## The first occurrence of a word -/

/-- Puts a character in front of a text that was cut in two. -/
def consBefore (c : Char) (cut : Option (List Char × List Char)) : Option (List Char × List Char) :=
  cut.map fun (before, after) ↦ (c :: before, after)

theorem consBefore_eq_some_iff {c : Char} {cut : Option (List Char × List Char)}
    {before after : List Char} :
    consBefore c cut = some (before, after) ↔ ∃ b, cut = some (b, after) ∧ before = c :: b := by
  cases cut with
  | none => simp [consBefore]
  | some cut =>
    obtain ⟨b, a⟩ := cut
    simp only [consBefore, Option.map_some, Option.some.injEq, Prod.mk.injEq]
    constructor
    · rintro ⟨rfl, rfl⟩
      exact ⟨b, ⟨rfl, rfl⟩, rfl⟩
    · rintro ⟨b', ⟨rfl, rfl⟩, rfl⟩
      exact ⟨rfl, rfl⟩

/-- The text before and after the first occurrence of `word`. -/
def cutAt (word : List Char) : List Char → Option (List Char × List Char)
  | [] => (stripStart? word []).map ([], ·)
  | c :: rest =>
    match stripStart? word (c :: rest) with
    | some after => some ([], after)
    | none => consBefore c (cutAt word rest)

theorem eq_append_of_cutAt {word text before after : List Char}
    (h : cutAt word text = some (before, after)) : text = before ++ word ++ after := by
  induction text generalizing before with
  | nil =>
    obtain ⟨rest, hr, he⟩ := Option.map_eq_some_iff.1 h
    cases he
    simpa using stripStart?_eq_some_iff.1 hr
  | cons c text ih =>
    unfold cutAt at h
    split at h
    · rename_i hs
      cases h
      simpa using stripStart?_eq_some_iff.1 hs
    · obtain ⟨b, hc, rfl⟩ := consBefore_eq_some_iff.1 h
      simp [ih hc]

theorem suffix_of_cutAt {word text before after : List Char}
    (h : cutAt word text = some (before, after)) : after <:+ text :=
  ⟨before ++ word, (eq_append_of_cutAt h).symm⟩

/-- What follows the first occurrence of a word is shorter than the text by at least the word. -/
theorem length_le_of_cutAt {word text before after : List Char}
    (h : cutAt word text = some (before, after)) : word.length + after.length ≤ text.length := by
  rw [eq_append_of_cutAt h]
  simp only [List.length_append]
  omega

/-- Whether `word` occurs in a text. -/
def occursIn (word text : List Char) : Bool := (cutAt word text).isSome

end XmlInspect.Text
