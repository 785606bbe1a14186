import Mathlib.Data.List.TakeWhile
import XmlInspect.Proofs.Located

/-!
# What tokens are made of

Scanning moves a cursor over a text. Here every step of the scan is given by the characters that it
moves over, from which follow the offset it leads to and the text it leaves. A token is then
described by what stands in it, and the tokens of a text by how they stand in a row.
-/

namespace XmlInspect

/-! ## The first occurrence of a word -/

namespace Text

variable {word text before after : List Char}

/-- The first occurrence of a word does not depend on what follows it. -/
theorem cutAt_append (h : cutAt word text = some (before, after)) (more : List Char) :
    cutAt word (text ++ more) = some (before, after ++ more) := by
  induction text generalizing before with
  | nil =>
    obtain ⟨rest, hrest, heq⟩ := Option.map_eq_some_iff.1 h
    cases heq
    have hnil := stripStart?_eq_some_iff.1 hrest
    obtain ⟨rfl, rfl⟩ := List.append_eq_nil_iff.1 hnil.symm
    cases more <;> rfl
  | cons c text ih =>
    unfold cutAt at h
    split at h
    · rename_i hstrip
      cases h
      rw [List.cons_append, cutAt, ← List.cons_append,
        stripStart?_eq_some_iff.2 (by rw [stripStart?_eq_some_iff.1 hstrip, List.append_assoc])]
    · rename_i hstrip
      obtain ⟨front, hfront, rfl⟩ := consBefore_eq_some_iff.1 h
      have hnone : stripStart? word (c :: text ++ more) = none := by
        rw [Option.eq_none_iff_forall_ne_some] at hstrip ⊢
        intro rest hrest
        -- The word occurs further on in the text, so the text is long enough to hold it here.
        have hlength := length_le_of_cutAt hfront
        obtain ⟨tail, htail⟩ : word <+: c :: text :=
          List.prefix_of_prefix_length_le ⟨rest, (stripStart?_eq_some_iff.1 hrest).symm⟩
            (List.prefix_append _ _) (by rw [List.length_cons]; omega)
        exact hstrip tail (stripStart?_eq_some_iff.2 htail.symm)
      rw [List.cons_append, cutAt, ← List.cons_append, hnone, ih hfront]
      rfl

/-- The first occurrence of a word is the first also if nothing follows it. -/
theorem cutAt_of_append (h : cutAt word (before ++ word ++ after) = some (before, after)) :
    cutAt word (before ++ word) = some (before, []) := by
  induction before with
  | nil =>
    have hstrip : stripStart? word word = some [] := stripStart?_eq_some_iff.2 (by simp)
    cases word with
    | nil => rfl
    | cons w word =>
      rw [List.nil_append, cutAt, hstrip]
  | cons c before ih =>
    rw [List.cons_append, List.cons_append, cutAt] at h
    split at h
    · cases h
    · rename_i hstrip
      obtain ⟨front, hfront, heq⟩ := consBefore_eq_some_iff.1 h
      cases heq
      have hnone : stripStart? word (c :: (before ++ word)) = none := by
        rw [Option.eq_none_iff_forall_ne_some] at hstrip ⊢
        intro rest hrest
        refine hstrip (rest ++ after) (stripStart?_eq_some_iff.2 ?_)
        rw [← List.append_assoc, ← stripStart?_eq_some_iff.1 hrest]
        simp
      rw [List.cons_append, cutAt, hnone, ih hfront]
      rfl

/-- What follows the first occurrence of a word may be anything. -/
theorem cutAt_replace (h : cutAt word text = some (before, after)) (more : List Char) :
    cutAt word (before ++ word ++ more) = some (before, more) := by
  rw [eq_append_of_cutAt h] at h
  exact cutAt_append (cutAt_of_append h) more

/-- Whether a text is one processing instruction and nothing else. -/
def isInstruction (text : List Char) : Bool :=
  match (stripStart? "<?".toList text).bind (cutAt "?>".toList) with
  | some (_, []) => true
  | _ => false

private theorem isInstruction_of_cutAt (h : cutAt "?>".toList text = some (before, after)) :
    isInstruction ("<?".toList ++ before ++ "?>".toList) = true := by
  rw [eq_append_of_cutAt h] at h
  have hstrip : stripStart? "<?".toList ("<?".toList ++ before ++ "?>".toList) =
      some (before ++ "?>".toList) :=
    stripStart?_eq_some_iff.2 (List.append_assoc _ _ _)
  rw [isInstruction, hstrip, Option.bind_some, cutAt_of_append h]

/-! ## Runs of characters -/

/-- A search for the end of a run looks no further than the first character that ends it. -/
theorem span_append {p : Char → Bool} {rest : List Char} (text : List Char)
    (h : ∀ c ∈ rest.head?, p c = false) :
    (text ++ rest).takeWhile p = text.takeWhile p ∧
      (text ++ rest).dropWhile p = text.dropWhile p ++ rest := by
  induction text with
  | nil =>
    cases rest with
    | nil => exact ⟨rfl, rfl⟩
    | cons c rest =>
      have hc := h c rfl
      simp [hc]
  | cons c text ih =>
    rw [List.cons_append, List.takeWhile_cons, List.dropWhile_cons, List.takeWhile_cons,
      List.dropWhile_cons]
    split
    · rw [ih.1, ih.2]
      exact ⟨rfl, rfl⟩
    · exact ⟨rfl, rfl⟩

/-- A front that holds out is found whole. -/
theorem span_eq {p : Char → Bool} {front rest : List Char} (hfront : ∀ c ∈ front, p c = true)
    (hrest : ∀ c ∈ rest.head?, p c = false) :
    (front ++ rest).takeWhile p = front ∧ (front ++ rest).dropWhile p = rest := by
  have hspan := span_append front hrest
  rwa [List.takeWhile_eq_self_iff.2 hfront, List.dropWhile_eq_nil_iff.2 hfront,
    List.nil_append] at hspan

end Text

/-! ## Moving over characters -/

namespace Cursor

variable {cursor next last : Cursor} {chars more : List Char} {lexeme : Lexeme}

/-- A cursor moves over some characters. -/
structure Moves (cursor : Cursor) (chars : List Char) (next : Cursor) : Prop where
  rest_eq : cursor.rest = chars ++ next.rest
  offset_eq : next.offset = cursor.offset + Text.byteSize chars

namespace Moves

theorem trans (h : cursor.Moves chars next) (h' : next.Moves more last) :
    cursor.Moves (chars ++ more) last where
  rest_eq := by rw [h.rest_eq, h'.rest_eq, List.append_assoc]
  offset_eq := by rw [h'.offset_eq, h.offset_eq, Text.byteSize_append, Nat.add_assoc]

end Moves

theorem moves_char (offset : Nat) (c : Char) (rest : List Char) :
    Moves ⟨offset, c :: rest⟩ [c] ⟨offset + c.utf8Size, rest⟩ :=
  ⟨rfl, rfl⟩

/-- A cursor stands somewhere in a text. -/
def IsIn (cursor : Cursor) (text : List Char) : Prop :=
  ∃ before, text = before ++ cursor.rest ∧ cursor.offset = Text.byteSize before

theorem IsIn.rest_eq {text : List Char} (h : cursor.IsIn text) (h' : next.IsIn text)
    (hoffset : cursor.offset = next.offset) : cursor.rest = next.rest := by
  obtain ⟨before, htext, hbefore⟩ := h
  obtain ⟨before', htext', hbefore'⟩ := h'
  exact (Text.append_inj_of_byteSize (htext.symm.trans htext')
    (hbefore.symm.trans (hoffset.trans hbefore'))).2

namespace Moves

variable {text : List Char}

theorem isIn (h : cursor.Moves chars next) (hin : cursor.IsIn text) : next.IsIn text := by
  obtain ⟨before, htext, hoffset⟩ := hin
  refine ⟨before ++ chars, ?_, ?_⟩
  · rw [htext, h.rest_eq, List.append_assoc]
  · rw [h.offset_eq, hoffset, Text.byteSize_append]

theorem stands (h : cursor.Moves chars next) (hin : cursor.IsIn text) :
    Text.Stands text cursor.offset next.offset chars := by
  obtain ⟨before, htext, hoffset⟩ := hin
  rw [h.offset_eq, hoffset, htext, h.rest_eq, ← List.append_assoc]
  exact Text.Stands.mk before chars next.rest

theorem le (h : cursor.Moves chars next) : cursor.offset ≤ next.offset := by
  rw [h.offset_eq]
  exact Nat.le_add_right _ _

end Moves

theorem byteSize_of_isAsciiBlank (h : ∀ c ∈ chars, Text.isAsciiBlank c = true) :
    Text.byteSize chars = chars.length := by
  induction chars with
  | nil => rfl
  | cons c chars ih =>
    have hc : c.utf8Size = 1 := by
      have hblank := h c List.mem_cons_self
      simp only [Text.isAsciiBlank, Bool.or_eq_true, beq_iff_eq] at hblank
      rcases hblank with (((rfl | rfl) | rfl) | rfl) | rfl <;> rfl
    rw [Text.byteSize_cons, hc, ih fun d hd ↦ h d (List.mem_cons_of_mem c hd), List.length_cons,
      Nat.add_comm]

theorem moves_skipBlanks (cursor : Cursor) :
    cursor.Moves (cursor.rest.takeWhile Text.isAsciiBlank) cursor.skipBlanks where
  rest_eq := List.takeWhile_append_dropWhile.symm
  offset_eq := by
    rw [byteSize_of_isAsciiBlank fun c hc ↦ List.mem_takeWhile_imp hc]
    rfl

/-- A name is not empty, and nothing in it ends a name. -/
theorem name_eq_ok (h : cursor.name = .ok (lexeme, next)) :
    lexeme.start = cursor.offset ∧ cursor.Moves lexeme.text next ∧ lexeme.text ≠ [] ∧
      ∀ c ∈ lexeme.text, endsName c = false := by
  unfold name at h
  split at h
  · cases h
  · rename_i c rest hrest
    split at h
    · cases h
    · rename_i hc
      cases h
      refine ⟨rfl, ⟨?_, rfl⟩, List.cons_ne_nil _ _, ?_⟩
      · rw [hrest, List.cons_append, List.takeWhile_append_dropWhile]
      · intro d hd
        rcases List.mem_cons.1 hd with rfl | hd
        · simpa using hc
        · simpa using List.mem_takeWhile_imp hd

theorem past_eq_ok {word : String} (h : cursor.past word = .ok next) :
    ∃ before, Text.cutAt word.toList cursor.rest = some (before, next.rest) ∧
      cursor.Moves (before ++ word.toList) next := by
  unfold past at h
  split at h
  · rename_i before after hcut
    cases h
    refine ⟨before, hcut, Text.eq_append_of_cutAt hcut, ?_⟩
    rw [Text.byteSize_append, Nat.add_assoc]
  · cases h

theorem value_eq_ok (h : cursor.value = .ok (lexeme, next)) :
    lexeme.start = cursor.offset ∧ cursor.Moves lexeme.text next := by
  unfold value at h
  split at h
  · cases h
  · rename_i quote rest hrest
    split at h
    · split at h
      · rename_i hcut
        cases h
        refine ⟨rfl, ?_, rfl⟩
        rw [hrest, Text.eq_append_of_cutAt hcut]
        simp
      · cases h
    · cases h

theorem attr_eq_ok {attr : AttributeLexeme} (h : cursor.attr = .ok (attr, next)) :
    ∃ middle gap last, cursor.name = .ok (attr.name, middle) ∧ middle.Moves gap last ∧
      last.value = .ok (attr.value, next) := by
  unfold Cursor.attr at h
  split at h
  · cases h
  · rename_i name middle hname
    split at h
    · rename_i offset rest hskip
      split at h
      · cases h
      · rename_i hvalue
        cases h
        have hblanks := moves_skipBlanks middle
        rw [hskip] at hblanks
        have hequals : Moves ⟨offset, '=' :: rest⟩ ['='] ⟨offset + 1, rest⟩ := ⟨rfl, rfl⟩
        exact ⟨middle, _, _, hname, (hblanks.trans hequals).trans (moves_skipBlanks _), hvalue⟩
    · cases h

end Cursor

namespace AttributeLexeme

/-- The attributes of a tag stand in a text one after the other, between two offsets. -/
def Row (text : List Char) : Nat → List AttributeLexeme → Nat → Prop
  | start, [], stop => start ≤ stop
  | start, attr :: attrs, stop =>
    start ≤ attr.name.start ∧ Text.Stands text attr.name.start attr.name.stop attr.name.text ∧
      attr.name.stop ≤ attr.value.start ∧
      Text.Stands text attr.value.start attr.value.stop attr.value.text ∧
      Row text attr.value.stop attrs stop

theorem Row.of_le {text : List Char} {start start' stop : Nat} {attrs : List AttributeLexeme}
    (h : Row text start attrs stop) (hle : start' ≤ start) : Row text start' attrs stop := by
  cases attrs with
  | nil => exact Nat.le_trans hle h
  | cons attr attrs => exact ⟨Nat.le_trans hle h.1, h.2⟩

end AttributeLexeme

namespace Cursor

variable {cursor next : Cursor} {text : List Char}

theorem row_cons {attr : AttributeLexeme} {attrs : List AttributeLexeme} {stop : Nat}
    (h : cursor.attr = .ok (attr, next)) (hin : cursor.IsIn text)
    (hrow : AttributeLexeme.Row text next.offset attrs stop) :
    AttributeLexeme.Row text cursor.offset (attr :: attrs) stop := by
  obtain ⟨middle, gap, last, hname, hgap, hvalue⟩ := attr_eq_ok h
  obtain ⟨hstart, hmoves, -, -⟩ := name_eq_ok hname
  obtain ⟨hstart', hmoves'⟩ := value_eq_ok hvalue
  have hstop : attr.name.stop = middle.offset := by
    rw [hmoves.offset_eq, Lexeme.stop, hstart]
  have hstop' : attr.value.stop = next.offset := by
    rw [hmoves'.offset_eq, Lexeme.stop, hstart']
  have hmiddle := hmoves.isIn hin
  refine ⟨Nat.le_of_eq hstart.symm, ?_, ?_, ?_, ?_⟩
  · rw [hstart, hstop]
    exact hmoves.stands hin
  · rw [hstop, hstart']
    exact hgap.le
  · rw [hstart', hstop']
    exact hmoves'.stands (hgap.isIn hmiddle)
  · rw [hstop']
    exact hrow

/-- What ends an opening tag. -/
def tagStop (selfClosing : Bool) : List Char := if selfClosing then "/>".toList else ">".toList

/-- An opening tag ends as its form says, and nothing in the names of its attributes ends a name. -/
theorem tagEnd_eq_ok {start : Nat} {attrs : List AttributeLexeme} {selfClosing : Bool}
    (h : cursor.tagEnd start = .ok (attrs, selfClosing, next)) :
    (∃ front, cursor.Moves (front ++ tagStop selfClosing) next) ∧
      (∀ attr ∈ attrs, ∀ c ∈ attr.name.text, endsName c = false) ∧
      ∀ {text}, cursor.IsIn text → AttributeLexeme.Row text cursor.offset attrs next.offset := by
  fun_induction tagEnd start cursor generalizing attrs with
  | case1 => cases h
  | case2 cursor offset rest hs =>
    cases h
    have hblanks := moves_skipBlanks cursor
    rw [hs] at hblanks
    have hmoves := hblanks.trans (moves_char offset '>' rest)
    exact ⟨⟨_, hmoves⟩, by simp, fun _ ↦ hmoves.le⟩
  | case3 cursor offset rest hs =>
    cases h
    have hblanks := moves_skipBlanks cursor
    rw [hs] at hblanks
    have hslash : Moves ⟨offset, '/' :: '>' :: rest⟩ "/>".toList ⟨offset + 2, rest⟩ := ⟨rfl, rfl⟩
    have hmoves := hblanks.trans hslash
    exact ⟨⟨_, hmoves⟩, by simp, fun _ ↦ hmoves.le⟩
  | case4 => cases h
  | case5 => cases h
  | case6 cursor offset c rest _ _ hs lexeme middle hattr hlt tail selfClosing' last ht ih =>
    cases h
    obtain ⟨⟨front, hfront⟩, hnames, hrow⟩ := ih ht
    obtain ⟨other, gap, before, hname, hgap, hvalue⟩ := attr_eq_ok hattr
    have hblanks := moves_skipBlanks cursor
    rw [hs] at hblanks
    have hmoves := ((hblanks.trans (name_eq_ok hname).2.1).trans hgap).trans (value_eq_ok hvalue).2
    have hall := hmoves.trans hfront
    rw [← List.append_assoc] at hall
    refine ⟨⟨_, hall⟩, ?_, fun hin ↦ ?_⟩
    · intro attr hattrs
      rcases List.mem_cons.1 hattrs with rfl | hattrs
      · exact (name_eq_ok hname).2.2.2
      · exact hnames attr hattrs
    · exact (row_cons hattr (hblanks.isIn hin) (hrow (hmoves.isIn hin))).of_le hblanks.le

end Cursor

/-! ## One token -/

/-- What the characters of a token look like. Only what is asked of tokens elsewhere is said: an
instruction is one, the parts of a tag stand where they should, and a document type declaration ends
where the scan of it stops. -/
def Token.Fits (text : List Char) (token : Token) : Prop :=
  match token.form with
  | .instruction => Text.isInstruction token.raw = true
  | .openTag name attrs selfClosing => name.start = token.start + 1 ∧
      (∃ front, token.raw = '<' :: name.text ++ (front ++ Cursor.tagStop selfClosing)) ∧
      AttributeLexeme.Row text name.stop attrs token.stop
  | .closeTag name => ∃ blanks, (∀ c ∈ blanks, Text.isAsciiBlank c = true) ∧
      token.raw = "</".toList ++ name.text ++ blanks ++ ">".toList
  | .doctype => ∃ content after next, token.raw = "<!DOCTYPE".toList ++ content ∧
      Cursor.doctypeEnd token.start 0 none ⟨token.start + 9, content ++ after⟩ = .ok next ∧
      next.rest = after
  | _ => True

namespace Cursor

variable {start : Nat} {c : Char} {rest raw text : List Char} {form : TokenForm} {next : Cursor}

private theorem fits_of_instruction (h : instruction start rest = .ok (form, next))
    (hraw : "<?".toList ++ rest = raw ++ next.rest) : Token.Fits text ⟨start, raw, form⟩ := by
  unfold instruction at h
  split at h
  · cases h
  · rename_i hpast
    obtain ⟨before, hcut, hmoves⟩ := past_eq_ok hpast
    split at h
    · split at h
      · cases h
      · cases h
        trivial
    · cases h
      have hrest : rest = before ++ "?>".toList ++ next.rest := hmoves.rest_eq
      rw [hrest, ← List.append_assoc, ← List.append_assoc] at hraw
      rw [← List.append_cancel_right hraw]
      exact Text.isInstruction_of_cutAt hcut

theorem openTag_eq_ok (h : openTag start rest = .ok (form, next)) :
    ∃ name attrs selfClosing cursor, form = .openTag name attrs selfClosing ∧
      Cursor.name ⟨start + 1, rest⟩ = .ok (name, cursor) ∧
      cursor.tagEnd start = .ok (attrs, selfClosing, next) := by
  unfold openTag at h
  split at h
  · cases h
  · rename_i name cursor hname
    split at h
    · cases h
    · rename_i attrs selfClosing last htag
      cases h
      exact ⟨name, attrs, selfClosing, cursor, rfl, hname, htag⟩

theorem closeTag_eq_ok (h : closeTag start rest = .ok (form, next)) :
    ∃ name cursor, form = .closeTag name ∧ Cursor.name ⟨start + 2, rest⟩ = .ok (name, cursor) ∧
      cursor.rest = cursor.rest.takeWhile Text.isAsciiBlank ++ '>' :: next.rest := by
  unfold closeTag at h
  split at h
  · cases h
  · rename_i name cursor hname
    split at h
    · rename_i offset after hskip
      cases h
      refine ⟨name, cursor, rfl, hname, ?_⟩
      have hblanks := (moves_skipBlanks cursor).rest_eq
      rw [hskip] at hblanks
      exact hblanks
    · cases h

private theorem fits_of_openTag (h : openTag start rest = .ok (form, next))
    (hraw : '<' :: rest = raw ++ next.rest) (hin : IsIn ⟨start, '<' :: rest⟩ text) :
    Token.Fits text ⟨start, raw, form⟩ := by
  obtain ⟨name, attrs, selfClosing, cursor, rfl, hname, htag⟩ := openTag_eq_ok h
  obtain ⟨hstart, hname, -, -⟩ := name_eq_ok hname
  obtain ⟨⟨front, hfront⟩, -, hrow⟩ := tagEnd_eq_ok htag
  have hmoves := (moves_char start '<' rest).trans hname
  have hall := hmoves.trans hfront
  have heq : raw = '<' :: name.text ++ (front ++ tagStop selfClosing) :=
    List.append_cancel_right (hraw.symm.trans hall.rest_eq)
  have hstop : name.stop = cursor.offset := by
    rw [hname.offset_eq, Lexeme.stop, hstart]
  have hlast : start + Text.byteSize raw = next.offset := by
    rw [hall.offset_eq, heq]
    rfl
  refine ⟨hstart, ⟨front, heq⟩, ?_⟩
  rw [hstop, Token.stop, hlast]
  exact hrow (hmoves.isIn hin)

private theorem fits_of_closeTag (h : closeTag start rest = .ok (form, next))
    (hraw : "</".toList ++ rest = raw ++ next.rest) : Token.Fits text ⟨start, raw, form⟩ := by
  obtain ⟨name, cursor, rfl, hname, hblanks⟩ := closeTag_eq_ok h
  have hrest : rest = name.text ++ cursor.rest := (name_eq_ok hname).2.1.rest_eq
  refine ⟨cursor.rest.takeWhile Text.isAsciiBlank, fun c hc ↦ List.mem_takeWhile_imp hc, ?_⟩
  refine List.append_cancel_right (hraw.symm.trans ?_)
  rw [hrest]
  nth_rewrite 1 [hblanks]
  simp

private theorem fits_of_markup (h : markup start rest = .ok (form, next))
    (hraw : '<' :: rest = raw ++ next.rest) (hin : IsIn ⟨start, '<' :: rest⟩ text) :
    Token.Fits text ⟨start, raw, form⟩ := by
  unfold markup at h
  split at h
  · rename_i hstart
    obtain ⟨tail, rfl⟩ := Text.startsWith_iff.1 hstart
    exact fits_of_instruction h hraw
  split at h
  · obtain ⟨cursor, -, heq⟩ := map_eq_ok_iff.1 h
    cases heq
    trivial
  split at h
  · obtain ⟨cursor, -, heq⟩ := map_eq_ok_iff.1 h
    cases heq
    trivial
  split at h
  · rename_i hstart
    obtain ⟨tail, rfl⟩ := Text.startsWith_iff.1 hstart
    obtain ⟨cursor, hend, heq⟩ := map_eq_ok_iff.1 h
    cases heq
    obtain ⟨content, hcontent⟩ := suffix_of_doctypeEnd hend
    have htail : tail = content ++ next.rest := hcontent.symm
    have hall : "<!DOCTYPE".toList ++ content ++ next.rest = raw ++ next.rest := by
      rw [← hraw, htail]
      simp
    refine ⟨content, next.rest, next, (List.append_cancel_right hall).symm, ?_, rfl⟩
    rw [← htail]
    exact hend
  split at h
  · rename_i hstart
    obtain ⟨tail, rfl⟩ := Text.startsWith_iff.1 hstart
    exact fits_of_closeTag h hraw
  · exact fits_of_openTag h hraw hin

/-- What a token looks like. -/
theorem fits_of_token (h : token start c rest = .ok (form, next))
    (hraw : c :: rest = raw ++ next.rest) (hin : IsIn ⟨start, c :: rest⟩ text) :
    Token.Fits text ⟨start, raw, form⟩ := by
  unfold token at h
  split at h
  · rename_i hc
    rw [hc] at hraw hin
    exact fits_of_markup h hraw hin
  split at h
  · split at h
    · cases h
      trivial
    · cases h
  · cases h
    trivial

end Cursor

namespace Token

variable {text : List Char} {token other : Token} {start stop : Nat} {tokens : List Token}

/-- A token comes out of a step of the scan of a text. -/
def Scanned (text : List Char) (token : Token) : Prop :=
  ∃ c rest next, Cursor.IsIn ⟨token.start, c :: rest⟩ text ∧
    Cursor.token token.start c rest = .ok (token.form, next) ∧ c :: rest = token.raw ++ next.rest

namespace Scanned

/-- A token takes at least one character. -/
theorem raw_ne_nil (h : token.Scanned text) : token.raw ≠ [] := by
  obtain ⟨c, rest, next, -, htoken, hraw⟩ := h
  intro hnil
  rw [hnil, List.nil_append] at hraw
  have hlength := (Cursor.suffix_of_token htoken).length_le
  rw [← hraw, List.length_cons] at hlength
  omega

theorem start_lt_stop (h : token.Scanned text) : token.start < token.stop := by
  have hsize : Text.byteSize token.raw ≠ 0 := mt Text.byteSize_eq_zero_iff.1 h.raw_ne_nil
  unfold stop
  omega

theorem stands (h : token.Scanned text) : Text.Stands text token.start token.stop token.raw := by
  obtain ⟨c, rest, next, hin, -, hraw⟩ := h
  have hmoves : Cursor.Moves ⟨token.start, c :: rest⟩ token.raw ⟨token.stop, next.rest⟩ :=
    ⟨hraw, rfl⟩
  exact hmoves.stands hin

theorem fits (h : token.Scanned text) : token.Fits text := by
  obtain ⟨c, rest, next, hin, htoken, hraw⟩ := h
  exact Cursor.fits_of_token htoken hraw hin

/-- There is only one token that starts at an offset. -/
theorem unique (h : token.Scanned text) (h' : other.Scanned text)
    (hstart : token.start = other.start) : token = other := by
  obtain ⟨start, raw, form⟩ := token
  obtain ⟨start', raw', form'⟩ := other
  obtain rfl : start = start' := hstart
  obtain ⟨c, rest, next, hin, htoken, hraw⟩ := h
  obtain ⟨c', rest', next', hin', htoken', hraw'⟩ := h'
  cases hin.rest_eq hin' rfl
  obtain ⟨rfl, rfl⟩ := Prod.mk.inj (Except.ok.inj (htoken.symm.trans htoken'))
  obtain rfl : raw = raw' := List.append_cancel_right (hraw.symm.trans hraw')
  rfl

end Scanned

/-! ## Tokens in a row -/

/-- Some tokens stand in a row in a text, from an offset on. -/
def Chained (text : List Char) : Nat → List Token → Prop
  | _, [] => True
  | offset, token :: tokens =>
    token.start = offset ∧ token.Scanned text ∧ Chained text token.stop tokens

/-- Where a row of tokens ends. -/
def stopAfter : Nat → List Token → Nat
  | offset, [] => offset
  | _, token :: tokens => stopAfter token.stop tokens

/-- Nothing but tokens of text stands between two offsets. -/
def TextRun (text : List Char) (start stop : Nat) : Prop :=
  ∃ first parts, (∀ part ∈ first :: parts, part.form = .text) ∧
    Chained text start (first :: parts) ∧ stopAfter start (first :: parts) = stop

namespace TextRun

theorem single (h : token.Scanned text) (hform : token.form = .text) :
    TextRun text token.start token.stop :=
  ⟨token, [], by simpa using hform, ⟨rfl, h, trivial⟩, rfl⟩

theorem concat (h : TextRun text start token.start) (htoken : token.Scanned text)
    (hform : token.form = .text) : TextRun text start token.stop := by
  obtain ⟨first, parts, hforms, hchained, hstop⟩ := h
  refine ⟨first, parts ++ [token], ?_, ?_⟩
  · intro part hpart
    rw [← List.cons_append] at hpart
    rcases List.mem_append.1 hpart with hpart | hpart
    · exact hforms part hpart
    · rw [List.mem_singleton.1 hpart]
      exact hform
  · clear hforms
    induction parts generalizing first start with
    | nil => exact ⟨⟨hchained.1, hchained.2.1, hstop.symm, htoken, trivial⟩, rfl⟩
    | cons next parts ih =>
      obtain ⟨hchained', hstop'⟩ := ih next hchained.2.2 hstop
      exact ⟨⟨hchained.1, hchained.2.1, hchained'⟩, hstop'⟩

theorem exists_stands (h : TextRun text start stop) :
    ∃ chars, chars ≠ [] ∧ Text.Stands text start stop chars := by
  obtain ⟨first, parts, -, hchained, hstop⟩ := h
  induction parts generalizing first start with
  | nil =>
    obtain ⟨rfl, hfirst, -⟩ := hchained
    rw [← hstop]
    exact ⟨first.raw, hfirst.raw_ne_nil, hfirst.stands⟩
  | cons next parts ih =>
    obtain ⟨rfl, hfirst, hrest⟩ := hchained
    obtain ⟨chars, -, hchars⟩ := ih next hrest hstop
    exact ⟨first.raw ++ chars, List.append_ne_nil_of_left_ne_nil hfirst.raw_ne_nil _,
      hfirst.stands.append hchars⟩

theorem start_lt_stop (h : TextRun text start stop) : start < stop := by
  obtain ⟨chars, hne, hstands⟩ := h.exists_stands
  have hsize : Text.byteSize chars ≠ 0 := mt Text.byteSize_eq_zero_iff.1 hne
  have := hstands.stop_eq
  omega

end TextRun

/-- No token of text starts at an offset. -/
def EndsText (text : List Char) (stop : Nat) : Prop :=
  ∀ {token : Token}, token.Scanned text → token.start = stop → token.form ≠ .text

theorem endsText_of_scanned (h : token.Scanned text) (hform : token.form ≠ .text) :
    EndsText text token.start := by
  intro other hother hstart
  rw [hother.unique h hstart]
  exact hform

theorem endsText_byteSize (text : List Char) : EndsText text (Text.byteSize text) := by
  intro token htoken hstart
  have hlt := htoken.start_lt_stop
  obtain ⟨before, after, heq, hbefore, hstop⟩ := htoken.stands
  have hsize := congrArg Text.byteSize heq
  rw [Text.byteSize_append, Text.byteSize_append] at hsize
  omega

/-! ## All tokens -/

variable {offset : Nat} {c : Char} {rest raw : List Char} {form : TokenForm} {next : Cursor}

/-- The scan goes on after the first token. -/
theorem scanFrom_cons (h : Cursor.token offset c rest = .ok (form, next))
    (hraw : c :: rest = raw ++ next.rest) :
    scanFrom offset (c :: rest) =
      (⟨offset, raw, form⟩ :: (scanFrom (offset + Text.byteSize raw) next.rest).1,
        (scanFrom (offset + Text.byteSize raw) next.rest).2) := by
  have hlength : rest.length + 1 - next.rest.length = raw.length := by
    have := congrArg List.length hraw
    simp only [List.length_cons, List.length_append] at this
    omega
  have htake : (c :: rest).take (rest.length + 1 - next.rest.length) = raw := by
    rw [hlength, hraw, List.take_left]
  rw [scanFrom]
  split
  · rename_i heq
    rw [h] at heq
    cases heq
  · rename_i form' next' heq
    rw [h] at heq
    cases heq
    dsimp only
    rw [htake]

theorem scanFrom_nil (offset : Nat) : scanFrom offset [] = ([], none) := by rw [scanFrom]

theorem scanFrom_error {fault : ScanFault} (h : Cursor.token offset c rest = .error fault) :
    scanFrom offset (c :: rest) = ([], some fault) := by
  rw [scanFrom]
  split
  · rename_i heq
    rw [h] at heq
    cases heq
    rfl
  · rename_i heq
    rw [h] at heq
    cases heq

/-- The tokens of a text stand in a row in it, up to the end unless there is a fault. -/
theorem chained_of_scanFrom (before text : List Char) :
    Chained (before ++ text) (Text.byteSize before) (scanFrom (Text.byteSize before) text).1 ∧
      ((scanFrom (Text.byteSize before) text).2 = none →
        stopAfter (Text.byteSize before) (scanFrom (Text.byteSize before) text).1 =
          Text.byteSize (before ++ text)) := by
  -- On the length of the text: a token may take any number of characters, but at least one.
  induction hn : text.length using Nat.strong_induction_on generalizing before text with
  | _ n ih =>
    cases text with
    | nil =>
      rw [scanFrom_nil]
      refine ⟨trivial, fun _ ↦ ?_⟩
      rw [List.append_nil]
      rfl
    | cons c rest =>
      cases htoken : Cursor.token (Text.byteSize before) c rest with
      | error fault =>
        rw [scanFrom_error htoken]
        exact ⟨trivial, fun h ↦ by cases h⟩
      | ok result =>
        obtain ⟨form, next⟩ := result
        obtain ⟨front, hfront⟩ := Cursor.suffix_of_token htoken
        have hraw : c :: rest = c :: front ++ next.rest := by rw [← hfront, List.cons_append]
        have hlength : next.rest.length < n := by
          rw [← hn, hraw, List.length_append, List.length_cons]
          omega
        obtain ⟨hchained, hstop⟩ :=
          ih next.rest.length hlength (before ++ c :: front) next.rest rfl
        have hsplit : before ++ c :: front ++ next.rest = before ++ c :: rest := by
          rw [hraw, List.append_assoc]
        rw [Text.byteSize_append, hsplit] at hchained hstop
        rw [scanFrom_cons htoken hraw]
        exact ⟨⟨rfl, ⟨c, rest, next, ⟨before, rfl, rfl⟩, htoken, hraw⟩, hchained⟩, hstop⟩

theorem chained_of_scan (body : List Char) : Chained body 0 (scan body).1 :=
  (chained_of_scanFrom [] body).1

theorem stopAfter_of_scan {body : List Char} (h : (scan body).2 = none) :
    stopAfter 0 (scan body).1 = Text.byteSize body :=
  (chained_of_scanFrom [] body).2 h

end Token

end XmlInspect
