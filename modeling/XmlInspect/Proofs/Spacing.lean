import XmlInspect.Proofs.TokenEnds

/-!
# Blanks between the tokens of a query

Blanks divide tokens and mean nothing else, so more of them may be put in wherever a token has
ended. Two facts are behind this. A token that ends before something ends before a blank as well.
And where a name has looked at a colon and the character behind it, both belong to the next token,
so nothing is ever put in between them.

Where tokens stand is no part of what is read, so it is said by a relation of its own: `Written`
divides a text into blanks and *lexemes*, each the characters that one token was read from.
-/

namespace XmlInspect.Query

open Text (isBlank)

variable {c : Char} {text tail rest : List Char} {offset : Nat} {token : Token}
  {afterOperand : Bool}

/-! ## Lexemes -/

/-- A token and where it is written: the number of its first character, and the one after its
last. -/
structure Lexeme where
  token : Token
  start : Nat
  stop : Nat

/-- A text whose first character has the number `offset` is written as some lexemes, with blanks
before, between and behind them. Each token is what is read where its lexeme starts, after the token
before it, and reading it ends where the lexeme does. -/
inductive Written : Bool → Nat → List Char → List Lexeme → Prop
  | blanks {afterOperand : Bool} {offset : Nat} {blanks : List Char} :
    blanks.all isBlank = true → Written afterOperand offset blanks []
  | cons {afterOperand : Bool} {offset start stop : Nat} {blanks tail rest : List Char} {c : Char}
      {token : Token} {lexemes : List Lexeme} :
    blanks.all isBlank = true → isBlank c = false →
      start = offset + blanks.length → stop = start + (tail.length + 1) →
      lexToken afterOperand start c (tail ++ rest) = .ok (token, rest) →
      Written token.endsOperand stop rest lexemes →
      Written afterOperand offset (blanks ++ c :: (tail ++ rest)) (⟨token, start, stop⟩ :: lexemes)

variable {lexemes others : List Lexeme} {tokens : List Token}

theorem not_mem_of_all_isBlank {blanks : List Char} (h : blanks.all isBlank = true)
    (hc : isBlank c = false) : c ∉ blanks := by
  intro hmem
  rw [List.all_eq_true.1 h c hmem] at hc
  cases hc

theorem length_sub_length (tail rest : List Char) :
    (tail ++ rest).length + 1 - rest.length = tail.length + 1 := by
  rw [List.length_append]
  omega

/-! ## Reading lexemes -/

private theorem lexFrom_append (afterOperand : Bool) (offset : Nat) (text : List Char)
    {blanks : List Char} (h : blanks.all isBlank = true) :
    lexFrom afterOperand offset (blanks ++ text) =
      lexFrom afterOperand (offset + blanks.length) text := by
  induction blanks generalizing offset with
  | nil => rfl
  | cons b blanks ih =>
    rw [List.all_cons, Bool.and_eq_true] at h
    rw [List.cons_append, lexFrom.eq_def]
    dsimp only
    rw [if_pos h.1, ih _ h.2, List.length_cons, Nat.add_assoc, Nat.add_comm 1]

private theorem lexFrom_cons (hc : isBlank c = false)
    (h : lexToken afterOperand offset c (tail ++ rest) = .ok (token, rest)) :
    lexFrom afterOperand offset (c :: (tail ++ rest)) =
      (lexFrom token.endsOperand (offset + (tail.length + 1)) rest).map (token :: ·) := by
  rw [lexFrom.eq_def]
  dsimp only
  rw [if_neg (Bool.eq_false_iff.1 hc)]
  split
  · rename_i hfault
    rw [h] at hfault
    cases hfault
  · rename_i token' rest' htoken
    rw [h] at htoken
    cases htoken
    rw [length_sub_length]
    cases lexFrom token.endsOperand (offset + (tail.length + 1)) rest <;> rfl

theorem Written.lexFrom_eq (h : Written afterOperand offset text lexemes) :
    lexFrom afterOperand offset text = .ok (lexemes.map Lexeme.token) := by
  induction h with
  | @blanks _ offset blanks hblanks =>
    rw [← List.append_nil blanks, lexFrom_append _ _ _ hblanks, lexFrom.eq_def]
    rfl
  | cons hblanks hc hstart hstop htoken _ ih =>
    rw [lexFrom_append _ _ _ hblanks, ← hstart, lexFrom_cons hc htoken, ← hstop, ih]
    rfl

private theorem Written.cons_blank (h : Written afterOperand (offset + 1) text lexemes)
    (hc : isBlank c = true) : Written afterOperand offset (c :: text) lexemes := by
  have hall {blanks : List Char} (hblanks : blanks.all isBlank = true) :
      (c :: blanks).all isBlank = true := by rw [List.all_cons, hc, hblanks, Bool.true_and]
  cases h with
  | blanks hblanks => exact .blanks (hall hblanks)
  | @cons _ _ _ _ blanks _ _ _ _ _ hblanks hfirst hstart hstop htoken hrest =>
    refine .cons (hall hblanks) hfirst ?_ hstop htoken hrest
    rw [hstart, List.length_cons, Nat.add_assoc, Nat.add_comm 1]

theorem exists_written (h : lexFrom afterOperand offset text = .ok tokens) :
    ∃ lexemes, Written afterOperand offset text lexemes ∧ lexemes.map Lexeme.token = tokens := by
  fun_induction lexFrom afterOperand offset text generalizing tokens with
  | case1 =>
    cases h
    exact ⟨[], .blanks rfl, rfl⟩
  | case2 afterOperand offset c text hblank ih =>
    obtain ⟨lexemes, hwritten, hmap⟩ := ih h
    exact ⟨lexemes, hwritten.cons_blank hblank, hmap⟩
  | case3 => cases h
  | case4 => cases h
  | case5 afterOperand offset c text hblank token rest htoken hshort tokens' hrest ih =>
    cases h
    obtain ⟨lexemes, hwritten, rfl⟩ := ih hrest
    obtain ⟨tail, rfl, -⟩ := exists_lexToken htoken
    rw [length_sub_length] at hwritten
    exact ⟨_, .cons List.all_nil (Bool.eq_false_iff.2 hblank) rfl rfl htoken hwritten, rfl⟩

theorem lexFrom_eq_ok_iff : lexFrom afterOperand offset text = .ok tokens ↔
    ∃ lexemes, Written afterOperand offset text lexemes ∧ lexemes.map Lexeme.token = tokens := by
  constructor
  · exact exists_written
  · rintro ⟨lexemes, hwritten, rfl⟩
    exact hwritten.lexFrom_eq

theorem blanks_unique {blanks blanks' after after' : List Char} {c' : Char}
    (h : blanks.all isBlank = true) (hc : isBlank c = false) (h' : blanks'.all isBlank = true)
    (hc' : isBlank c' = false) (htext : blanks ++ c :: after = blanks' ++ c' :: after') :
    blanks = blanks' ∧ c :: after = c' :: after' := by
  have hstop : (c :: after).head?.all (!isBlank ·) = true := by simp [hc]
  have hstop' : (c' :: after').head?.all (!isBlank ·) = true := by simp [hc']
  obtain ⟨htake, hdrop⟩ := span_append h hstop
  obtain ⟨htake', hdrop'⟩ := span_append h' hstop'
  exact ⟨by rw [← htake, htext, htake'], by rw [← hdrop, htext, hdrop']⟩

namespace Written

/-- A text is written as lexemes in one way only. -/
theorem unique (h : Written afterOperand offset text lexemes)
    (h' : Written afterOperand offset text others) : others = lexemes := by
  induction h generalizing others with
  | blanks hblanks =>
    cases h' with
    | blanks => rfl
    | @cons _ _ _ _ _ _ _ c _ _ _ hc => exact absurd (by simp) (not_mem_of_all_isBlank hblanks hc)
  | @cons afterOperand offset start stop blanks tail rest c token lexemes hblanks hc hstart hstop
      htoken _ ih =>
    generalize htext : blanks ++ c :: (tail ++ rest) = text at h'
    cases h' with
    | blanks hall => exact absurd (by simp [← htext]) (not_mem_of_all_isBlank hall hc)
    | @cons _ _ start' stop' blanks' tail' rest' c' token' lexemes' hblanks' hc' hstart' hstop'
        htoken' hrest' =>
      obtain ⟨rfl, hafter⟩ := blanks_unique hblanks hc hblanks' hc' htext
      obtain ⟨rfl, htail⟩ := List.cons.inj hafter
      rw [hstart', ← hstart, ← htail, htoken] at htoken'
      cases htoken'
      obtain rfl := List.append_cancel_right htail
      obtain rfl : start' = start := hstart'.trans hstart.symm
      obtain rfl : stop' = stop := hstop'.trans hstop.symm
      rw [ih hrest']

private theorem bounds (h : Written afterOperand offset text lexemes) :
    lexemes.Pairwise (fun lexeme later ↦ lexeme.stop ≤ later.start) ∧
      ∀ lexeme ∈ lexemes, offset ≤ lexeme.start ∧ lexeme.start < lexeme.stop ∧
        lexeme.stop ≤ offset + text.length := by
  induction h with
  | blanks => simp
  | @cons _ offset start stop blanks tail rest c token lexemes _ _ hstart hstop _ _ ih =>
    obtain ⟨hpairwise, hbounds⟩ := ih
    have hlength : (blanks ++ c :: (tail ++ rest)).length =
        blanks.length + (tail.length + 1) + rest.length := by
      simp only [List.length_append, List.length_cons]
      omega
    refine ⟨List.pairwise_cons.2 ⟨fun later hlater ↦ (hbounds later hlater).1, hpairwise⟩, ?_⟩
    rw [hlength]
    refine List.forall_mem_cons.2 ⟨?_, fun lexeme hlexeme ↦ ?_⟩
    · dsimp only
      omega
    · obtain ⟨hlow, hlt, hhigh⟩ := hbounds lexeme hlexeme
      omega

/-- Every character that is not blank stands in a lexeme. -/
theorem exists_covers (h : Written afterOperand offset text lexemes) {i : Nat}
    (hget : text[i]? = some c) (hc : isBlank c = false) :
    ∃ lexeme ∈ lexemes, lexeme.start ≤ offset + i ∧ offset + i < lexeme.stop := by
  induction h generalizing i with
  | blanks hblanks => exact absurd (List.mem_of_getElem? hget) (not_mem_of_all_isBlank hblanks hc)
  | @cons _ offset start stop blanks tail rest d token lexemes hblanks _ hstart hstop _ _ ih =>
    by_cases hbefore : i < blanks.length
    · rw [List.getElem?_append_left hbefore] at hget
      exact absurd (List.mem_of_getElem? hget) (not_mem_of_all_isBlank hblanks hc)
    by_cases hinside : i < blanks.length + (tail.length + 1)
    · refine ⟨_, List.mem_cons_self, ?_, ?_⟩ <;> dsimp only <;> omega
    · have hrest : rest[i - (blanks.length + (tail.length + 1))]? = some c := by
        rw [← List.cons_append, ← List.append_assoc, List.getElem?_append_right] at hget
        · rwa [List.length_append, List.length_cons] at hget
        · rw [List.length_append, List.length_cons]
          omega
      obtain ⟨lexeme, hlexeme, hlow, hhigh⟩ := ih hrest
      refine ⟨lexeme, List.mem_cons_of_mem _ hlexeme, ?_, ?_⟩ <;> omega

private theorem exists_at (h : Written afterOperand offset text lexemes) (offset' : Nat) :
    ∃ others, Written afterOperand offset' text others ∧
      others.map Lexeme.token = lexemes.map Lexeme.token := by
  induction h generalizing offset' with
  | blanks hblanks => exact ⟨[], .blanks hblanks, rfl⟩
  | cons hblanks hc _ _ htoken _ ih =>
    obtain ⟨tail', htail, hreads⟩ := exists_lexToken htoken
    obtain rfl := List.append_cancel_right htail
    obtain ⟨others, hothers, hmap⟩ := ih _
    refine ⟨_ :: others, .cons hblanks hc rfl rfl (hreads _ _ (.refl _)) hothers, ?_⟩
    rw [List.map_cons, List.map_cons, hmap]

/-- A single colon is no token, so a text that starts with a colon starts with two of them in one
lexeme. -/
theorem exists_of_colon (h : Written afterOperand offset (':' :: text) lexemes) :
    ∃ lexeme ∈ lexemes, lexeme.start = offset ∧ offset + 2 ≤ lexeme.stop := by
  have hcolon : isBlank ':' = false := by decide
  generalize htext : ':' :: text = all at h
  cases h with
  | blanks hall => exact absurd (by simp [← htext]) (not_mem_of_all_isBlank hall hcolon)
  | cons hblanks hc hstart hstop htoken _ =>
    have hnil : ([] : List Char).all isBlank = true := rfl
    obtain ⟨rfl, hafter⟩ := blanks_unique hnil hcolon hblanks hc htext
    obtain ⟨rfl, -⟩ := List.cons.inj hafter
    have hlength := congrArg List.length (eq_cons_of_lexToken_colon htoken)
    rw [List.length_append, List.length_cons] at hlength
    refine ⟨_, List.mem_cons_self, hstart, ?_⟩
    dsimp only
    rw [List.length_nil] at hstart
    omega

/-- What is put in behind a lexeme, or further on between two others, is no matter to it. -/
theorem followsLike_insert (h : Written afterOperand offset rest lexemes)
    {front back blanks : List Char} (hrest : front ++ back = rest)
    (hapart : ∀ lexeme ∈ lexemes,
      lexeme.stop ≤ offset + front.length ∨ offset + front.length ≤ lexeme.start)
    (hblanks : blanks.all isBlank = true) : FollowsLike (front ++ blanks ++ back) rest := by
  subst hrest
  cases front with
  | nil =>
    cases blanks with
    | nil => exact .refl _
    | cons b blanks =>
      rw [List.all_cons, Bool.and_eq_true] at hblanks
      exact .inl hblanks.1
  | cons d front =>
    refine .inr ⟨rfl, fun hcolon ↦ ?_⟩
    cases front with
    | cons => rfl
    | nil =>
      cases hcolon
      obtain ⟨lexeme, hlexeme, hstart, hstop⟩ := h.exists_of_colon
      have htorn := hapart lexeme hlexeme
      rw [List.length_singleton] at htorn
      omega

private theorem exists_insert (h : Written afterOperand offset text lexemes)
    {front back blanks : List Char} (htext : front ++ back = text)
    (hapart : ∀ lexeme ∈ lexemes,
      lexeme.stop ≤ offset + front.length ∨ offset + front.length ≤ lexeme.start)
    (hblanks : blanks.all isBlank = true) :
    ∃ others, Written afterOperand offset (front ++ blanks ++ back) others ∧
      others.map Lexeme.token = lexemes.map Lexeme.token := by
  induction h generalizing front with
  | blanks hall =>
    subst htext
    rw [List.all_append, Bool.and_eq_true] at hall
    refine ⟨[], .blanks ?_, rfl⟩
    rw [List.all_append, List.all_append, hall.1, hblanks, hall.2]
    rfl
  | @cons afterOperand offset start stop gap tail rest c token lexemes hgap hc hstart hstop htoken
      hrest ih =>
    obtain ⟨tail', htail, hreads⟩ := exists_lexToken htoken
    obtain rfl := List.append_cancel_right htail
    obtain ⟨hfirst, hlater⟩ := List.forall_mem_cons.1 hapart
    rcases hfirst with hbehind | hbefore
    · -- The blanks come behind the lexeme, which is read as before.
      have hwhole : (gap ++ c :: tail) ++ rest = front ++ back := by rw [htext]; simp
      obtain ⟨front, rfl⟩ : gap ++ c :: tail <+: front := by
        refine List.prefix_of_prefix_length_le ⟨rest, hwhole⟩ ⟨back, rfl⟩ ?_
        rw [List.length_append, List.length_cons]
        dsimp only at hbehind
        omega
      have hback : front ++ back = rest := by
        rw [List.append_assoc _ front] at hwhole
        exact (List.append_cancel_left hwhole).symm
      have hplace : offset + (gap ++ c :: tail ++ front).length = stop + front.length := by
        simp only [List.length_append, List.length_cons]
        omega
      rw [hplace] at hlater
      obtain ⟨others, hothers, hmap⟩ := ih hback hlater
      have htoken' := hreads start _ (hrest.followsLike_insert hback hlater hblanks)
      refine ⟨⟨token, start, stop⟩ :: others, ?_, by rw [List.map_cons, List.map_cons, hmap]⟩
      simpa using Written.cons hgap hc hstart hstop htoken' hothers
    · -- The blanks come before the lexeme, which moves with all that is behind it.
      obtain ⟨gap', rfl⟩ : front <+: gap := by
        refine List.prefix_of_prefix_length_le ⟨back, htext⟩ ⟨_, rfl⟩ ?_
        dsimp only at hbefore
        omega
      rw [List.append_assoc] at htext
      obtain rfl := List.append_cancel_left htext
      have hgap' : (front ++ blanks ++ gap').all isBlank = true := by
        rw [List.all_append, Bool.and_eq_true] at hgap
        rw [List.all_append, List.all_append, hgap.1, hblanks, hgap.2]
        rfl
      obtain ⟨others, hothers, hmap⟩ := hrest.exists_at _
      have hmoved :
          Written afterOperand offset (front ++ blanks ++ gap' ++ c :: (tail ++ rest)) _ :=
        .cons hgap' hc rfl rfl (hreads _ _ (.refl rest)) hothers
      rw [List.append_assoc] at hmoved
      exact ⟨_, hmoved, by rw [List.map_cons, List.map_cons, hmap]⟩

end Written

/-! ## Queries -/

/-- A query that can be read is written as its tokens in one way. Blanks may be put in at the ends
of it and wherever else no token is torn apart, and the tokens stay what they are. Every character
that is not blank stands in exactly one of the tokens, so nothing of the query is left out. -/
theorem lex_insert_blanks (h : lex text = .ok tokens) :
    ∃ lexemes, (∀ others, Written false 0 text others ↔ others = lexemes) ∧
      lexemes.map Lexeme.token = tokens ∧
      lexemes.Pairwise (fun lexeme later ↦ lexeme.stop ≤ later.start) ∧
      (∀ lexeme ∈ lexemes, lexeme.start < lexeme.stop ∧ lexeme.stop ≤ text.length) ∧
      (∀ front back blanks, text = front ++ back →
        (∀ lexeme ∈ lexemes, lexeme.stop ≤ front.length ∨ front.length ≤ lexeme.start) →
        blanks.all isBlank = true → lex (front ++ blanks ++ back) = .ok tokens) ∧
      ∀ i c, text[i]? = some c → isBlank c = false →
        ∃! lexeme, lexeme ∈ lexemes ∧ lexeme.start ≤ i ∧ i < lexeme.stop := by
  obtain ⟨lexemes, hwritten, rfl⟩ := lexFrom_eq_ok_iff.1 h
  obtain ⟨hpairwise, hbounds⟩ := hwritten.bounds
  simp only [Nat.zero_add] at hbounds
  refine ⟨lexemes, fun others ↦ ⟨hwritten.unique, fun he ↦ he ▸ hwritten⟩, rfl, hpairwise,
    fun lexeme hlexeme ↦ (hbounds lexeme hlexeme).2,
    fun front back blanks htext hapart hblanks ↦ ?_, fun i c hget hc ↦ ?_⟩
  · exact lexFrom_eq_ok_iff.2
      (hwritten.exists_insert htext.symm (by simpa using hapart) hblanks)
  · obtain ⟨lexeme, hlexeme, hlow, hhigh⟩ := hwritten.exists_covers hget hc
    rw [Nat.zero_add] at hlow hhigh
    refine ⟨lexeme, ⟨hlexeme, hlow, hhigh⟩, fun other ⟨hother, hlow', hhigh'⟩ ↦ ?_⟩
    by_contra hne
    rcases rel_or_rel_of_pairwise hpairwise hother hlexeme hne with hle | hle
    · exact absurd (Nat.lt_of_lt_of_le hhigh' (hle.trans hlow)) (Nat.lt_irrefl i)
    · exact absurd (Nat.lt_of_lt_of_le hhigh (hle.trans hlow')) (Nat.lt_irrefl i)

/-- A name and the two colons behind it are two tokens, though the name is read with a look at
both. -/
theorem lex_insert_blanks_axis :
    let tokens := [.name "a", .doubleColon, .star]
    lex "a::*".toList = .ok tokens ∧ lex "a ::*".toList = .ok tokens ∧
      lex "a::\t*".toList = .ok tokens := by
  intro tokens
  have hname : lexToken false 0 'a' "::*".toList = .ok (.name "a", "::*".toList) :=
    lexToken_of_startsName rfl rfl (by decide +kernel) (lexName_of_colons 0 List.all_nil ['*'])
  have hstar : Written false 3 ['*'] [⟨.star, 3, 4⟩] :=
    @Written.cons _ _ _ _ [] [] [] _ _ _ rfl rfl rfl rfl rfl (.blanks rfl)
  have hcolons : Written true 1 "::*".toList [⟨.doubleColon, 1, 3⟩, ⟨.star, 3, 4⟩] :=
    @Written.cons _ _ _ _ [] [':'] _ _ _ _ rfl rfl rfl rfl rfl hstar
  have hwritten : Written false 0 "a::*".toList
      [⟨.name "a", 0, 1⟩, ⟨.doubleColon, 1, 3⟩, ⟨.star, 3, 4⟩] :=
    @Written.cons _ _ _ _ [] [] _ _ _ _ rfl rfl rfl rfl hname hcolons
  have h : lex "a::*".toList = .ok tokens := hwritten.lexFrom_eq
  obtain ⟨lexemes, hunique, -, -, -, hinsert, -⟩ := lex_insert_blanks h
  obtain rfl := (hunique _).1 hwritten
  refine ⟨h, hinsert ['a'] "::*".toList [' '] rfl ?_ rfl,
    hinsert "a::".toList ['*'] ['\t'] rfl ?_ rfl⟩
  · simp
  · simp

end XmlInspect.Query
