import XmlInspect.Proofs.Tokens

/-!
# Where a document type declaration ends

Of the two readings of a text, the one that builds the tree only balances brackets to find the end
of a document type declaration. The scan looks closer: it skips brackets in quotes, in comments and
in instructions. Here the rule of the scan is given as a grammar. It shows that the end is found
without looking at what follows, and so what has to hold of a declaration by itself for the scan to
find its end where the other reading does.
-/

namespace XmlInspect

/-! ## The grammar -/

namespace Text

/-- A document type declaration ends in a text, and some text is left. So many brackets are open at
the start, and maybe a quote. -/
inductive EndsDoctype : Nat → Option Char → List Char → List Char → Prop
  | stop (rest : List Char) : EndsDoctype 0 none ('>' :: rest) rest
  | inside {depth : Nat} {quote c : Char} {text rest : List Char} :
    EndsDoctype depth (Cursor.quoteAfter quote c) text rest →
    EndsDoctype depth (some quote) (c :: text) rest
  | quote {depth : Nat} {c : Char} {text rest : List Char} : c = '"' ∨ c = '\'' →
    EndsDoctype depth (some c) text rest → EndsDoctype depth none (c :: text) rest
  | comment {depth : Nat} {content text after rest : List Char} :
    cutAt "-->".toList text = some (content, after) → EndsDoctype depth none after rest →
    EndsDoctype depth none ('<' :: '!' :: '-' :: '-' :: text) rest
  | instruction {depth : Nat} {content text after rest : List Char} :
    cutAt "?>".toList text = some (content, after) → EndsDoctype depth none after rest →
    EndsDoctype depth none ('<' :: '?' :: text) rest
  | nest {depth : Nat} {text rest : List Char} : startsWith "!--".toList text = false →
    startsWith ['?'] text = false → EndsDoctype (depth + 1) none text rest →
    EndsDoctype depth none ('<' :: text) rest
  | unnest {depth : Nat} {text rest : List Char} : EndsDoctype depth none text rest →
    EndsDoctype (depth + 1) none ('>' :: text) rest
  | other {depth : Nat} {c : Char} {text rest : List Char} : ¬ (c = '"' ∨ c = '\'') → c ≠ '<' →
    c ≠ '>' → EndsDoctype depth none text rest → EndsDoctype depth none (c :: text) rest

namespace EndsDoctype

variable {depth : Nat} {quote : Option Char} {text rest : List Char}

theorem exists_append (h : EndsDoctype depth quote text rest) :
    ∃ front, text = front ++ '>' :: rest := by
  induction h with
  | stop rest => exact ⟨[], rfl⟩
  | @comment _ content _ _ _ hcut _ ih =>
    obtain ⟨front, rfl⟩ := ih
    exact ⟨"<!--".toList ++ (content ++ "-->".toList ++ front), by
      simp [eq_append_of_cutAt hcut]⟩
  | @instruction _ content _ _ _ hcut _ ih =>
    obtain ⟨front, rfl⟩ := ih
    exact ⟨"<?".toList ++ (content ++ "?>".toList ++ front), by simp [eq_append_of_cutAt hcut]⟩
  | inside _ ih | quote _ _ ih | nest _ _ _ ih | unnest _ ih | other _ _ _ _ ih =>
    obtain ⟨front, rfl⟩ := ih
    exact ⟨_ :: front, rfl⟩

private theorem mem (h : EndsDoctype depth quote text rest) : '>' ∈ text := by
  obtain ⟨front, rfl⟩ := h.exists_append
  simp

/-- A word does not come to stand at the front of a text through what follows the text. -/
theorem startsWith_append_eq_false {word more : List Char} {c : Char}
    (h : startsWith word text = false) (hc : c ∈ text) (hword : c ∉ word) :
    startsWith word (text ++ more) = false := by
  by_contra hstarts
  obtain ⟨tail, htail⟩ := startsWith_iff.1 (by simpa using hstarts)
  rcases List.append_eq_append_iff.1 htail with ⟨more', hmore, -⟩ | ⟨tail', htext, -⟩
  · rw [hmore] at hword
    exact hword (List.mem_append_left _ hc)
  · rw [startsWith_iff.2 ⟨tail', htext⟩] at h
    cases h

private theorem startsWith_eq_false_of_append {word more : List Char}
    (h : startsWith word (text ++ more) = false) : startsWith word text = false := by
  by_contra hstarts
  obtain ⟨tail, htail⟩ := startsWith_iff.1 (by simpa using hstarts)
  rw [startsWith_iff.2 ⟨tail ++ more, by rw [htail, List.append_assoc]⟩] at h
  cases h

theorem append (h : EndsDoctype depth quote text rest) (more : List Char) :
    EndsDoctype depth quote (text ++ more) (rest ++ more) := by
  induction h with
  | stop rest => exact .stop _
  | inside _ ih => exact .inside ih
  | quote hc _ ih => exact .quote hc ih
  | comment hcut _ ih => exact .comment (cutAt_append hcut more) ih
  | instruction hcut _ ih => exact .instruction (cutAt_append hcut more) ih
  | nest hcomment hinstruction htext ih =>
    exact .nest (startsWith_append_eq_false hcomment htext.mem (by decide))
      (startsWith_append_eq_false hinstruction htext.mem (by decide)) ih
  | unnest _ ih => exact .unnest ih
  | other hquote hopen hclose _ ih => exact .other hquote hopen hclose ih

theorem exists_content (h : EndsDoctype depth quote text rest) :
    ∃ content, text = content ++ rest ∧ EndsDoctype depth quote content [] := by
  induction h with
  | stop rest => exact ⟨['>'], rfl, .stop []⟩
  | inside _ ih =>
    obtain ⟨content, rfl, hcontent⟩ := ih
    exact ⟨_ :: content, rfl, .inside hcontent⟩
  | quote hc _ ih =>
    obtain ⟨content, rfl, hcontent⟩ := ih
    exact ⟨_ :: content, rfl, .quote hc hcontent⟩
  | comment hcut _ ih =>
    obtain ⟨content, rfl, hcontent⟩ := ih
    refine ⟨_, ?_, .comment (cutAt_replace hcut content) hcontent⟩
    rw [eq_append_of_cutAt hcut]
    simp
  | instruction hcut _ ih =>
    obtain ⟨content, rfl, hcontent⟩ := ih
    refine ⟨_, ?_, .instruction (cutAt_replace hcut content) hcontent⟩
    rw [eq_append_of_cutAt hcut]
    simp
  | nest hcomment hinstruction _ ih =>
    obtain ⟨content, rfl, hcontent⟩ := ih
    exact ⟨_ :: content, rfl, .nest (startsWith_eq_false_of_append hcomment)
      (startsWith_eq_false_of_append hinstruction) hcontent⟩
  | unnest _ ih =>
    obtain ⟨content, rfl, hcontent⟩ := ih
    exact ⟨_ :: content, rfl, .unnest hcontent⟩
  | other hquote hopen hclose _ ih =>
    obtain ⟨content, rfl, hcontent⟩ := ih
    exact ⟨_ :: content, rfl, .other hquote hopen hclose hcontent⟩

private theorem blank_cons_iff {c : Char} (hc : isXmlBlank c = true) :
    EndsDoctype depth none (c :: text) rest ↔ EndsDoctype depth none text rest := by
  constructor
  · intro h
    cases h with
    | stop => cases hc
    | quote hquote => rcases hquote with rfl | rfl <;> cases hc
    | comment => cases hc
    | instruction => cases hc
    | nest => cases hc
    | unnest => cases hc
    | other _ _ _ h => exact h
  · intro h
    refine .other ?_ ?_ ?_ h
    · rintro (rfl | rfl) <;> cases hc
    · rintro rfl
      cases hc
    · rintro rfl
      cases hc

theorem blanks_append_iff {blanks : List Char} (hblanks : ∀ c ∈ blanks, isXmlBlank c = true) :
    EndsDoctype depth none (blanks ++ text) rest ↔ EndsDoctype depth none text rest := by
  induction blanks with
  | nil => rfl
  | cons c blanks ih =>
    rw [List.cons_append, blank_cons_iff (hblanks c List.mem_cons_self),
      ih fun d hd ↦ hblanks d (List.mem_cons_of_mem c hd)]

end EndsDoctype

end Text

/-! ## The scan -/

namespace Cursor

variable {start depth : Nat} {quote : Option Char} {cursor next : Cursor} {text rest : List Char}

theorem endsDoctype_of_doctypeEnd (h : cursor.doctypeEnd start depth quote = .ok next) :
    Text.EndsDoctype depth quote cursor.rest next.rest := by
  fun_induction doctypeEnd start depth quote cursor with
  | case1 => cases h
  | case2 depth cursor c rest hr _ next' q ih =>
    rw [hr]
    exact .inside (ih h)
  | case3 depth cursor c rest hr _ next' hq ih =>
    rw [hr]
    exact .quote hq (ih h)
  | case4 => cases h
  | case5 depth cursor rest tail hstrip middle hpast hr _ _ hlt ih =>
    cases Text.stripStart?_eq_some_iff.1 hstrip
    obtain ⟨content, hcut, -⟩ := past_eq_ok hpast
    rw [hr]
    exact .comment hcut (ih h)
  | case6 => cases h
  | case7 depth cursor rest tail hstrip _ middle hpast hr _ _ hlt ih =>
    cases Text.stripStart?_eq_some_iff.1 hstrip
    obtain ⟨content, hcut, -⟩ := past_eq_ok hpast
    rw [hr]
    exact .instruction hcut (ih h)
  | case8 depth cursor rest hinstruction hcomment hr _ next' _ ih =>
    rw [hr]
    refine .nest ?_ ?_ (ih h)
    · rw [Text.startsWith, hcomment]
      rfl
    · rw [Text.startsWith, hinstruction]
      rfl
  | case9 cursor rest hr _ next' =>
    rw [hr, ← Except.ok.inj h]
    exact .stop rest
  | case10 cursor rest depth hr _ next' _ _ ih =>
    rw [hr]
    exact .unnest (ih h)
  | case11 depth cursor c rest hr _ next' hquote hopen hclose ih =>
    rw [hr]
    exact .other hquote hopen hclose (ih h)

/-- Markup inside a declaration that the scan passes over as a whole. -/
theorem doctypeEnd_past (word : String) (offset : Nat)
    (h : doctypeEnd start depth quote cursor =
      match past word ⟨offset, text⟩ with
      | .error fault => .error fault
      | .ok next => doctypeEnd start depth none next)
    {content after : List Char} (hcut : Text.cutAt word.toList text = some (content, after))
    (hafter : ∀ offset, ∃ next, doctypeEnd start depth none ⟨offset, after⟩ = .ok next ∧
      next.rest = rest) :
    ∃ next, doctypeEnd start depth quote cursor = .ok next ∧ next.rest = rest := by
  rw [h]
  simp only [past, hcut]
  exact hafter _

theorem exists_doctypeEnd (h : Text.EndsDoctype depth quote text rest) (start offset : Nat) :
    ∃ next, doctypeEnd start depth quote ⟨offset, text⟩ = .ok next ∧ next.rest = rest := by
  induction h generalizing offset with
  | stop rest =>
    rw [doctypeEnd]
    exact ⟨_, rfl, rfl⟩
  | inside _ ih =>
    rw [doctypeEnd]
    exact ih _
  | quote hc _ ih =>
    rw [doctypeEnd]
    simp only [hc, if_true]
    exact ih _
  | @comment depth content text after rest hcut _ ih =>
    refine doctypeEnd_past "-->" (offset + 4) ?_ hcut ih
    have hstrip : Text.stripStart? "!--".toList ('!' :: '-' :: '-' :: text) = some text := rfl
    rw [doctypeEnd]
    dsimp only
    rw [if_neg (by decide), if_pos rfl, hstrip]
    dsimp only [List.drop]
    split <;> rename_i heq <;> rw [heq]
  | @instruction depth content text after rest hcut _ ih =>
    refine doctypeEnd_past "?>" (offset + 2) ?_ hcut ih
    have hcomment : Text.stripStart? "!--".toList ('?' :: text) = none := rfl
    have hstrip : Text.stripStart? ['?'] ('?' :: text) = some text := rfl
    rw [doctypeEnd]
    dsimp only
    rw [if_neg (by decide), if_pos rfl, hcomment, hstrip]
    dsimp only [List.drop]
    split <;> rename_i heq <;> rw [heq]
  | nest hcomment hinstruction _ ih =>
    rw [Text.startsWith, Option.isSome_eq_false_iff, Option.isNone_iff_eq_none] at hcomment
    rw [Text.startsWith, Option.isSome_eq_false_iff, Option.isNone_iff_eq_none] at hinstruction
    rw [doctypeEnd]
    dsimp only
    rw [if_neg (by decide), if_pos rfl, hcomment, hinstruction]
    exact ih _
  | unnest _ ih =>
    rw [doctypeEnd]
    exact ih _
  | other hquote hopen hclose _ ih =>
    rw [doctypeEnd]
    simp only [hquote, hopen, hclose, if_false]
    exact ih _

/-- The scan follows the grammar, wherever in a text the declaration starts. -/
theorem doctypeEnd_iff (start offset : Nat) :
    (∃ next, doctypeEnd start depth quote ⟨offset, text⟩ = .ok next ∧ next.rest = rest) ↔
      Text.EndsDoctype depth quote text rest := by
  constructor
  · rintro ⟨next, h, rfl⟩
    exact endsDoctype_of_doctypeEnd h
  · exact fun h ↦ exists_doctypeEnd h start offset

end Cursor

/-! ## Declarations by themselves -/

/-- Whether the scan of a declaration and a bracket after it stops at that bracket. -/
def Text.isSelfContained (content : List Char) : Bool :=
  match Cursor.doctypeEnd 0 0 none ⟨0, content ++ ['>']⟩ with
  | .ok next => next.rest.isEmpty
  | .error _ => false

theorem Text.isSelfContained_iff {content : List Char} :
    isSelfContained content = true ↔ EndsDoctype 0 none (content ++ ['>']) [] := by
  rw [← Cursor.doctypeEnd_iff 0 0, isSelfContained]
  split
  · rename_i next hnext
    simp [hnext]
  · rename_i hfault
    simp [hfault]

namespace Cursor

variable {blanks content rest : List Char}

theorem exists_doctypeEnd_of_isSelfContained (h : Text.isSelfContained content = true)
    (hblanks : ∀ c ∈ blanks, Text.isXmlBlank c = true) (rest : List Char) (start offset : Nat) :
    ∃ next, doctypeEnd start 0 none ⟨offset, blanks ++ (content ++ '>' :: rest)⟩ = .ok next ∧
      next.rest = rest := by
  have hends := (Text.EndsDoctype.blanks_append_iff hblanks).2
    ((Text.isSelfContained_iff.1 h).append rest)
  rw [List.append_assoc] at hends
  exact exists_doctypeEnd hends start offset

/-- The scan of a declaration stops at the bracket after it, whatever comes then, exactly if it does
so when nothing comes. -/
theorem isSelfContained_iff_rest_eq {start offset : Nat} {next : Cursor}
    (hblanks : ∀ c ∈ blanks, Text.isXmlBlank c = true)
    (h : doctypeEnd start 0 none ⟨offset, blanks ++ (content ++ '>' :: rest)⟩ = .ok next) :
    Text.isSelfContained content = true ↔ next.rest = rest := by
  constructor
  · intro hcontent
    obtain ⟨next', hnext', hrest⟩ :=
      exists_doctypeEnd_of_isSelfContained hcontent hblanks rest start offset
    rw [h] at hnext'
    cases hnext'
    exact hrest
  · -- The scan reads no further than the end, so what is behind it may be left out.
    intro hrest
    have hsplit : content ++ '>' :: rest = content ++ ['>'] ++ rest := by simp
    have hends := (Text.EndsDoctype.blanks_append_iff hblanks).1 (endsDoctype_of_doctypeEnd h)
    rw [hrest, hsplit] at hends
    obtain ⟨content', hcontent', hends'⟩ := hends.exists_content
    rw [Text.isSelfContained_iff, List.append_cancel_right hcontent']
    exact hends'

end Cursor

end XmlInspect
