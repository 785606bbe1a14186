import XmlInspect.Pattern.Item

/-!
# Reading patterns

A written pattern is cut into items from left to right. Each item takes at least one character, so
the reading ends; the lemmas on lengths are there for nothing else.
-/

namespace XmlInspect.Pattern

/-! ## Lengths -/

theorem length_dropWhile_le (p : Char → Bool) (text : List Char) :
    (text.dropWhile p).length ≤ text.length :=
  (List.dropWhile_suffix p).length_le

theorem hexEscape?_length {count : Nat} {text rest : List Char} {c : Char}
    (h : hexEscape? count text = some (c, rest)) : rest.length ≤ text.length := by
  unfold hexEscape? at h
  dsimp only at h
  split at h
  · split at h
    · rename_i c after heq
      obtain ⟨_, _, hc⟩ := Option.map_eq_some_iff.1 h
      have h₁ := length_dropWhile_le (· != '\x7d') (text.drop 1)
      rw [heq] at h₁
      simp only [Prod.mk.injEq] at hc
      simp only [List.length_cons, List.length_drop] at h₁
      rw [← hc.2]
      omega
    · cases h
  · split at h
    · obtain ⟨_, _, hc⟩ := Option.map_eq_some_iff.1 h
      simp only [Prod.mk.injEq] at hc
      rw [← hc.2, List.length_drop]
      omega
    · cases h

theorem decimal?_length {text rest : List Char} {n : Nat} (h : decimal? text = some (n, rest)) :
    rest.length ≤ text.length := by
  unfold decimal? at h
  dsimp only at h
  split at h
  · cases h
  · simp only [Option.some.injEq, Prod.mk.injEq] at h
    rw [← h.2]
    exact Nat.le_trans (length_dropWhile_le _ _)
      (Nat.le_trans (length_dropWhile_le _ _) (length_dropWhile_le _ _))

theorem length_skipReluctant (text : List Char) : (skipReluctant text).length ≤ text.length := by
  unfold skipReluctant
  split
  · simp only [List.length_cons]; omega
  · exact Nat.le_refl _

theorem edgeName?_length {text rest : List Char} {item : Item}
    (h : edgeName? text = some (item, rest)) : rest.length ≤ text.length := by
  unfold edgeName? at h
  split at h
  · rename_i tail heq
    obtain ⟨_, _, hc⟩ := Option.map_eq_some_iff.1 h
    have h₁ := length_dropWhile_le inEdgeName text
    rw [heq] at h₁
    simp only [Prod.mk.injEq] at hc
    simp only [List.length_cons] at h₁
    rw [← hc.2]
    omega
  · cases h

theorem escape?_length {text rest : List Char} {item : Item} (h : escape? text = some (item, rest)) :
    rest.length < text.length := by
  unfold escape? at h
  split at h
  · cases h
  · rename_i tail
    split at h
    · have h₁ := edgeName?_length h
      simp only [List.length_drop] at h₁
      rw [List.length_cons]
      omega
    · split at h
      · obtain ⟨⟨c, after⟩, hc, heq⟩ := Option.map_eq_some_iff.1 h
        have := hexEscape?_length hc
        simp only [Prod.mk.injEq] at heq
        rw [← heq.2, List.length_cons]
        omega
      · obtain ⟨_, _, heq⟩ := Option.map_eq_some_iff.1 h
        simp only [Prod.mk.injEq] at heq
        rw [← heq.2, List.length_cons]
        omega

theorem bounds?_length {text rest : List Char} {item : Item} (h : bounds? text = some (item, rest)) :
    rest.length ≤ text.length := by
  unfold bounds? at h
  split at h
  · rename_i tail heq
    have h₁ := decimal?_length heq
    have h₂ := length_skipReluctant tail
    simp only [Option.some.injEq, Prod.mk.injEq] at h
    simp only [List.length_cons] at h₁
    rw [← h.2]
    omega
  · rename_i tail heq
    have h₁ := decimal?_length heq
    have h₂ := length_skipReluctant tail
    simp only [Option.some.injEq, Prod.mk.injEq] at h
    simp only [List.length_cons] at h₁
    rw [← h.2]
    omega
  · rename_i heq
    have h₁ := decimal?_length heq
    split at h
    · rename_i tail hgreatest
      have h₂ := decimal?_length hgreatest
      have h₃ := length_skipReluctant tail
      split at h
      · simp only [Option.some.injEq, Prod.mk.injEq] at h
        simp only [List.length_cons] at h₁ h₂
        rw [← h.2]
        omega
      · cases h
    · cases h
  · cases h

namespace Bracket

theorem length_openAt (text : List Char) : (openAt text).2.length ≤ text.length := by
  have hdrop : (if (text.head? == some '^') = true then text.drop 1 else text).length
      ≤ text.length := by
    split
    · simp only [List.length_drop]; omega
    · exact Nat.le_refl _
  unfold openAt
  dsimp only
  split
  · rename_i rest heq
    rw [heq] at hdrop
    simp only [List.length_cons] at hdrop
    dsimp only
    omega
  · exact Nat.le_trans (length_dropWhile_le _ _) hdrop

theorem name?_length {text rest : List Char} {chars : CharClass}
    (h : name? text = some (chars, rest)) : rest.length ≤ text.length := by
  unfold name? at h
  dsimp only at h
  split at h
  · split at h
    · rename_i after heq
      obtain ⟨_, _, hc⟩ := Option.map_eq_some_iff.1 h
      have h₁ := length_dropWhile_le (· != ':') (text.drop (if text[1]? == some '^' then 2 else 1))
      rw [heq] at h₁
      simp only [Prod.mk.injEq] at hc
      simp only [List.length_cons, List.length_drop] at h₁
      rw [← hc.2]
      omega
    · cases h
  · cases h

theorem member?_length {text rest : List Char} {member : Char ⊕ CharClass}
    (h : member? text = some (member, rest)) : rest.length < text.length := by
  unfold member? at h
  split at h
  · cases h
  · rename_i tail
    split at h
    · rename_i heq
      have := escape?_length heq
      simp only [Option.some.injEq, Prod.mk.injEq] at h
      rw [← h.2, List.length_cons]
      omega
    · rename_i heq
      have := escape?_length heq
      simp only [Option.some.injEq, Prod.mk.injEq] at h
      rw [← h.2, List.length_cons]
      omega
    · cases h
  · simp only [Option.some.injEq, Prod.mk.injEq] at h
    rw [← h.2, List.length_cons]
    omega

theorem members?_length {text rest : List Char} {chars : CharClass}
    (h : members? text = some (chars, rest)) : rest.length < text.length := by
  unfold members? at h
  split at h
  · cases h
  · rename_i first next after heq
    have h₁ := member?_length heq
    split at h
    · simp only [Option.some.injEq, Prod.mk.injEq] at h
      rw [← h.2]
      exact h₁
    · split at h
      · rename_i hhigh
        have h₂ := member?_length hhigh
        split at h
        · simp only [Option.some.injEq, Prod.mk.injEq] at h
          simp only [List.length_cons] at h₁ h₂
          rw [← h.2]
          omega
        · cases h
      · cases h
  · rename_i heq
    have h₁ := member?_length heq
    simp only [Option.some.injEq, Prod.mk.injEq] at h
    rw [← h.2]
    exact h₁

end Bracket

theorem groupName?_length {text rest : List Char} {item : Item}
    (h : groupName? text = some (item, rest)) : rest.length ≤ text.length := by
  unfold groupName? at h
  dsimp only at h
  split at h
  · rename_i tail heq
    have h₁ := length_dropWhile_le (· != '>') text
    rw [heq] at h₁
    split at h
    · simp only [Option.some.injEq, Prod.mk.injEq] at h
      simp only [List.length_cons] at h₁
      rw [← h.2]
      omega
    · cases h
  · cases h

theorem switches?_length {text rest : List Char} {item : Item}
    (h : switches? text = some (item, rest)) : rest.length ≤ text.length := by
  have h₁ := length_dropWhile_le (fun c ↦ c != ':' && c != ')') text
  unfold switches? at h
  dsimp only at h
  split at h
  · rename_i heq
    rw [heq] at h₁
    simp only [Option.some.injEq, Prod.mk.injEq] at h
    simp only [List.length_cons] at h₁
    rw [← h.2]
    omega
  · rename_i heq
    rw [heq] at h₁
    split at h
    · cases h
    · simp only [Option.some.injEq, Prod.mk.injEq] at h
      simp only [List.length_cons] at h₁
      rw [← h.2]
      omega
  · cases h

theorem group?_length {text rest : List Char} {item : Item} (h : group? text = some (item, rest)) :
    rest.length ≤ text.length := by
  unfold group? at h
  split at h
  · have := groupName?_length h
    simp only [List.length_cons]
    omega
  · have := groupName?_length h
    simp only [List.length_cons]
    omega
  · have := switches?_length h
    simp only [List.length_cons]
    omega
  · simp only [Option.some.injEq, Prod.mk.injEq] at h
    exact Nat.le_of_eq (congrArg List.length h.2.symm)

/-! ## Brackets -/

/-- Reads up to the bracket that closes the outermost one. -/
def bracket? (current : Bracket) (outer : List Bracket) (text : List Char) :
    Option (CharClass × List Char) :=
  match text with
  | [] => none
  | '[' :: rest =>
    match h : Bracket.name? rest with
    | some (chars, after) =>
      have := Bracket.name?_length h
      bracket? (current.add chars) outer after
    | none =>
      have := Bracket.length_openAt rest
      bracket? (Bracket.openAt rest).1 (current :: outer) (Bracket.openAt rest).2
  | ']' :: rest =>
    match outer with
    | [] => some (current.close, rest)
    | around :: outer => bracket? (around.add current.close) outer rest
  | '&' :: '&' :: rest => bracket? (current.combine .inter) outer rest
  | '-' :: '-' :: rest => bracket? (current.combine .difference) outer rest
  | '~' :: '~' :: rest => bracket? (current.combine .symmetricDifference) outer rest
  | text =>
    match h : Bracket.members? text with
    | some (chars, after) =>
      have := Bracket.members?_length h
      bracket? (current.add chars) outer after
    | none => none
termination_by text.length

theorem bracket?_length {current : Bracket} {outer : List Bracket} {text rest : List Char}
    {chars : CharClass} (h : bracket? current outer text = some (chars, rest)) :
    rest.length < text.length := by
  fun_induction bracket? current outer text with
  | case1 => cases h
  | case2 current outer tail chars after hname hle ih =>
    have := ih h
    simp only [List.length_cons]
    omega
  | case3 current outer tail hname hle ih =>
    have := ih h
    simp only [List.length_cons]
    omega
  | case4 current tail =>
    simp only [Option.some.injEq, Prod.mk.injEq] at h
    rw [← h.2, List.length_cons]
    omega
  | case5 current tail around outer ih =>
    have := ih h
    simp only [List.length_cons]
    omega
  | case6 current outer tail ih =>
    have := ih h
    simp only [List.length_cons]
    omega
  | case7 current outer tail ih =>
    have := ih h
    simp only [List.length_cons]
    omega
  | case8 current outer tail ih =>
    have := ih h
    simp only [List.length_cons]
    omega
  | case9 current outer text _ _ _ _ _ _ chars after hmembers hlt ih =>
    have := ih h
    omega
  | case10 => cases h

/-! ## Items -/

/-- Reads the item that starts with a character. -/
def item? (c : Char) (rest : List Char) : Option (Item × List Char) :=
  match c with
  | '(' => group? rest
  | ')' => some (.groupClose, rest)
  | '|' => some (.bar, rest)
  | '[' =>
    (bracket? (Bracket.openAt rest).1 [] (Bracket.openAt rest).2).map fun (chars, rest) ↦
      (.chars chars, rest)
  | '?' => some (.repeated 0 (some 1), skipReluctant rest)
  | '*' => some (.repeated 0 none, skipReluctant rest)
  | '+' => some (.repeated 1 none, skipReluctant rest)
  | '\x7b' => bounds? rest
  | '\\' => escape? rest
  | '.' => some (.wildcard, rest)
  | '^' => some (.lineStart, rest)
  | '$' => some (.lineEnd, rest)
  | c => some (.char c, rest)

theorem item?_length {c : Char} {text rest : List Char} {item : Item}
    (h : item? c text = some (item, rest)) : rest.length ≤ text.length := by
  have hskip := length_skipReluctant text
  unfold item? at h
  split at h
  · exact group?_length h
  · simp_all
  · simp_all
  · obtain ⟨⟨chars, after⟩, hb, heq⟩ := Option.map_eq_some_iff.1 h
    have h₁ := bracket?_length hb
    have h₂ := Bracket.length_openAt text
    simp only [Prod.mk.injEq] at heq
    rw [← heq.2]
    omega
  · simp_all
  · simp_all
  · simp_all
  · exact bounds?_length h
  · exact Nat.le_of_lt (escape?_length h)
  · simp_all
  · simp_all
  · simp_all
  · simp_all

/-- The items of a written pattern. -/
def items? (text : List Char) : Option (List Item) :=
  match text with
  | [] => some []
  | c :: rest =>
    match h : item? c rest with
    | some (item, after) =>
      have := item?_length h
      (items? after).map (item :: ·)
    | none => none
termination_by text.length

end XmlInspect.Pattern
