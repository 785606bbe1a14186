import XmlInspect.Proofs.Solid

/-!
# Bodies that can be scanned

Building a tree asks little of how markup is written. A key may hold almost anything, the keyword of
a document type declaration may be in lower case, and what an XML declaration says is not read at
all. The scan is stricter in all of this. A body is *scannable* if it keeps to what the scan asks
for; this is said of its pieces and its first characters alone, without scanning anything.
-/

namespace XmlInspect

open Markup

/-! ## Names and pseudo-attributes -/

/-- Some characters that the scan reads as one name. -/
def Text.IsName (chars : List Char) : Prop :=
  chars ≠ [] ∧ ∀ c ∈ chars, Cursor.endsName c = false

instance (chars : List Char) : Decidable (Text.IsName chars) :=
  decidable_of_iff (chars.isEmpty = false ∧ (chars.all fun c ↦ !Cursor.endsName c) = true) <| by
    simp [Text.IsName]

namespace Text

/-- A text starts with a name, an equals sign and a value in quotes, and this is what follows. -/
def Assigns (text after : List Char) : Prop :=
  ∃ key blanks blanks' value quote, IsName key ∧ (∀ c ∈ blanks, isAsciiBlank c = true) ∧
    (∀ c ∈ blanks', isAsciiBlank c = true) ∧ (quote = '"' ∨ quote = '\'') ∧ quote ∉ value ∧
    text = key ++ (blanks ++ '=' :: (blanks' ++ quote :: (value ++ quote :: after)))

/-- Nothing but assignments start in a text before its last `size` bytes. The value of the last one
may reach into these. -/
inductive Assignments (size : Nat) : List Char → Prop
  | stop {text : List Char} (h : byteSize (text.dropWhile isAsciiBlank) ≤ size) :
    Assignments size text
  | next {text after : List Char} (h : size < byteSize (text.dropWhile isAsciiBlank))
    (hfirst : Assigns (text.dropWhile isAsciiBlank) after) (hrest : Assignments size after) :
    Assignments size text

private theorem not_mem_of_cutAt {c : Char} {text before after : List Char}
    (h : cutAt [c] text = some (before, after)) : c ∉ before := by
  induction text generalizing before with
  | nil => cases h
  | cons d text ih =>
    unfold cutAt at h
    split at h
    · cases h
      simp
    · rename_i hstrip
      obtain ⟨before, hcut, rfl⟩ := consBefore_eq_some_iff.1 h
      have hne : c ≠ d := by
        rintro rfl
        simp [stripStart?] at hstrip
      rw [List.mem_cons, not_or]
      exact ⟨hne, ih hcut⟩

end Text

namespace Cursor

variable {offset start stop size : Nat} {text after content rest : List Char} {cursor : Cursor}

theorem exists_quote_of_value {lexeme : Lexeme} {next : Cursor}
    (h : cursor.value = .ok (lexeme, next)) : ∃ quote content, (quote = '"' ∨ quote = '\'') ∧
      quote ∉ content ∧ cursor.rest = quote :: (content ++ quote :: next.rest) := by
  unfold value at h
  split at h
  · cases h
  · rename_i quote rest hrest
    split at h
    · rename_i hquote
      split at h
      · rename_i content after hcut
        cases h
        refine ⟨quote, content, by simpa using hquote, Text.not_mem_of_cutAt hcut, ?_⟩
        rw [hrest, Text.eq_append_of_cutAt hcut]
        simp
      · cases h
    · cases h

/-- The scan reads an attribute exactly if one is written there. -/
theorem attr_iff :
    (∃ lexeme next, attr ⟨offset, text⟩ = .ok (lexeme, next) ∧ next.rest = after) ↔
      Text.Assigns text after := by
  constructor
  · rintro ⟨lexeme, next, h, rfl⟩
    unfold attr at h
    split at h
    · cases h
    rename_i name middle hname
    obtain ⟨-, hmoves, hname⟩ := name_eq_ok hname
    split at h
    · rename_i offset' rest hskip
      split at h
      · cases h
      rename_i value last hvalue
      cases h
      obtain ⟨quote, content, hquote, hnot, hrest⟩ := exists_quote_of_value hvalue
      have htext : text = name.text ++ middle.rest := hmoves.rest_eq
      have hblanks := (moves_skipBlanks middle).rest_eq
      have hblanks' := (moves_skipBlanks ⟨offset' + 1, rest⟩).rest_eq
      rw [hskip] at hblanks
      rw [hrest] at hblanks'
      dsimp only at hblanks hblanks'
      refine ⟨name.text, middle.rest.takeWhile Text.isAsciiBlank, rest.takeWhile Text.isAsciiBlank,
        content, quote, hname, fun c hc ↦ List.mem_takeWhile_imp hc,
        fun c hc ↦ List.mem_takeWhile_imp hc, hquote, hnot, ?_⟩
      rw [← hblanks', ← hblanks, ← htext]
    · cases h
  · rintro ⟨key, blanks, blanks', value, quote, ⟨hne, hkey⟩, hblanks, hblanks', hquote, hnot, rfl⟩
    exact ⟨_, _, attr_append hne hkey hblanks hblanks' hquote (cutAt_singleton hnot) offset, rfl⟩

theorem skipBlanks_lt_iff (h : cursor.offset + Text.byteSize cursor.rest = stop + size) :
    cursor.skipBlanks.offset < stop ↔
      size < Text.byteSize (cursor.rest.dropWhile Text.isAsciiBlank) := by
  have hoffset := (moves_skipBlanks cursor).offset_eq
  have hrest := congrArg Text.byteSize (moves_skipBlanks cursor).rest_eq
  rw [Text.byteSize_append] at hrest
  have hdrop : Text.byteSize cursor.skipBlanks.rest =
      Text.byteSize (cursor.rest.dropWhile Text.isAsciiBlank) := rfl
  omega

theorem offset_add_of_attr {lexeme : AttributeLexeme} {next : Cursor} {total : Nat}
    (hattr : cursor.skipBlanks.attr = .ok (lexeme, next))
    (h : cursor.offset + Text.byteSize cursor.rest = total) :
    next.offset + Text.byteSize next.rest = total := by
  obtain ⟨middle, gap, last, hname, hgap, hvalue⟩ := attr_eq_ok hattr
  have hmoves := (((moves_skipBlanks cursor).trans (name_eq_ok hname).2.1).trans hgap).trans
    (value_eq_ok hvalue).2
  rw [hmoves.offset_eq, Nat.add_assoc, ← Text.byteSize_append, ← hmoves.rest_eq]
  exact h

private theorem assignments_of_attr {lexeme : AttributeLexeme} {next : Cursor}
    (h : cursor.offset + Text.byteSize cursor.rest = stop + size)
    (hlt : cursor.skipBlanks.offset < stop) (hattr : cursor.skipBlanks.attr = .ok (lexeme, next))
    (hassigned : Text.Assignments size cursor.rest) : Text.Assignments size next.rest := by
  cases hassigned with
  | stop hle => exact absurd ((skipBlanks_lt_iff h).1 hlt) (Nat.not_lt.2 hle)
  | next _ hfirst hrest =>
    obtain ⟨lexeme', next', hattr', hafter⟩ := attr_iff.2 hfirst
    cases hattr.symm.trans hattr'
    rw [hafter]
    exact hrest

/-- The pseudo-attributes of a declaration can be read exactly if there is nothing else in it. What
counts as in it is told by the number of bytes from its end on. -/
theorem pseudoAttributes_iff (h : cursor.offset + Text.byteSize cursor.rest = stop + size) :
    (∃ attrs, cursor.pseudoAttributes stop = .ok attrs) ↔ Text.Assignments size cursor.rest := by
  fun_induction pseudoAttributes stop cursor with
  | case1 cursor _ hlt fault hattr =>
    constructor
    · rintro ⟨attrs, hattrs⟩
      cases hattrs
    · rintro (hle | ⟨-, hfirst, -⟩)
      · exact absurd ((skipBlanks_lt_iff h).1 hlt) (Nat.not_lt.2 hle)
      · obtain ⟨lexeme, next, hattr', -⟩ := attr_iff.2 hfirst
        cases hattr.symm.trans hattr'
  | case2 cursor _ hlt lexeme next hattr _ fault hattrs ih =>
    constructor
    · rintro ⟨attrs, hattrs⟩
      cases hattrs
    · intro hassigned
      obtain ⟨attrs, hattrs'⟩ := (ih (offset_add_of_attr hattr h)).2
        (assignments_of_attr h hlt hattr hassigned)
      cases hattrs.symm.trans hattrs'
  | case3 cursor _ hlt lexeme next hattr _ attrs hattrs ih =>
    refine ⟨fun _ ↦ ?_, fun _ ↦ ⟨_, rfl⟩⟩
    exact .next ((skipBlanks_lt_iff h).1 hlt) (attr_iff.1 ⟨lexeme, next, hattr, rfl⟩)
      ((ih (offset_add_of_attr hattr h)).1 ⟨attrs, hattrs⟩)
  | case4 cursor _ hle =>
    refine ⟨fun _ ↦ ?_, fun _ ↦ ⟨_, rfl⟩⟩
    exact .stop (Nat.not_lt.1 (mt (skipBlanks_lt_iff h).2 hle))

end Cursor

/-! ## What the scan asks for -/

/-- Whether there are only assignments can be found out by reading them. -/
instance (size : Nat) (text : List Char) : Decidable (Text.Assignments size text) :=
  have hiff : (∃ attrs, Cursor.pseudoAttributes (Text.byteSize text) ⟨size, text⟩ = .ok attrs) ↔
      Text.Assignments size text := Cursor.pseudoAttributes_iff (Nat.add_comm _ _)
  match h : Cursor.pseudoAttributes (Text.byteSize text) ⟨size, text⟩ with
  | .ok attrs => .isTrue (hiff.1 ⟨attrs, h⟩)
  | .error _ => .isFalse fun hassigned ↦ by
    obtain ⟨attrs, hattrs⟩ := hiff.2 hassigned
    cases h.symm.trans hattrs

/-- If a text starts with an XML declaration, there are only assignments in that. -/
def Text.IsDeclared (text : List Char) : Prop :=
  Source.startsDeclaration text = true → ∃ content rest,
    cutAt "?>".toList (text.drop 5) = some (content, rest) ∧
      Assignments (byteSize rest + 2) (text.drop 5)

instance (text : List Char) : Decidable (Text.IsDeclared text) :=
  match h : Text.cutAt "?>".toList (text.drop 5) with
  | some (content, rest) =>
    decidable_of_iff (Source.startsDeclaration text = true →
      Text.Assignments (Text.byteSize rest + 2) (text.drop 5)) <| by
        rw [Text.IsDeclared, h]
        refine imp_congr_right fun _ ↦ ⟨fun hassigned ↦ ⟨content, rest, rfl, hassigned⟩, ?_⟩
        rintro ⟨_, _, heq, hassigned⟩
        cases heq
        exact hassigned
  | none => decidable_of_iff (¬ Source.startsDeclaration text = true) <| by
      rw [Text.IsDeclared, h]
      refine imp_congr_right fun _ ↦ ⟨False.elim, ?_⟩
      rintro ⟨_, _, heq, -⟩
      cases heq

/-- A piece is written as the scan asks for: what names end with is in no name, the keyword of a
document type declaration is in upper case, and no instruction looks like an XML declaration but
what comes first. -/
def Markup.Piece.IsPlain (piece : Piece) : Prop :=
  match piece.form with
  | .openTag content _ => Text.IsName (content.takeWhile (!Text.isXmlBlank ·)) ∧
    ∀ raw ∈ (RawAttribute.readAll true [] (Text.byteSize (content.takeWhile (!Text.isXmlBlank ·)))
      (content.dropWhile (!Text.isXmlBlank ·))).1, ∀ c ∈ raw.key, Cursor.endsName c = false
  | .doctype _ => "<!DOCTYPE".toList <+: piece.raw
  | .instruction => Source.startsDeclaration piece.raw = true → piece.start = 0
  | _ => True

instance : (piece : Piece) → Decidable piece.IsPlain
  | ⟨_, _, .openTag content _⟩ =>
    decidable_of_iff (Text.IsName (content.takeWhile (!Text.isXmlBlank ·)) ∧
      ((RawAttribute.readAll true [] (Text.byteSize (content.takeWhile (!Text.isXmlBlank ·)))
        (content.dropWhile (!Text.isXmlBlank ·))).1.all fun raw ↦
          raw.key.all fun c ↦ !Cursor.endsName c) = true) <| by
      simp [Piece.IsPlain]
  | ⟨_, raw, .doctype _⟩ => inferInstanceAs (Decidable ("<!DOCTYPE".toList <+: raw))
  | ⟨start, raw, .instruction⟩ =>
    inferInstanceAs (Decidable (Source.startsDeclaration raw = true → start = 0))
  | ⟨_, _, .text⟩ | ⟨_, _, .closeTag _⟩ | ⟨_, _, .comment _⟩ | ⟨_, _, .cdata _⟩
  | ⟨_, _, .declaration⟩ => .isTrue trivial

/-- A body is written as the scan asks for. A byte-order mark is text to the scan, so no markup may
follow it. -/
structure Text.Scannable (body : List Char) : Prop where
  mark : ¬ [byteOrderMark, '<'] <+: body
  declared : IsDeclared body
  plain : ∀ piece ∈ (Piece.cutAll 0
    (if body.head? = some byteOrderMark then body.drop 1 else body)).1, piece.IsPlain

instance (body : List Char) : Decidable (Text.Scannable body) :=
  decidable_of_iff (¬ [Text.byteOrderMark, '<'] <+: body ∧ Text.IsDeclared body ∧
      ∀ piece ∈ (Piece.cutAll 0
        (if body.head? = some Text.byteOrderMark then body.drop 1 else body)).1, piece.IsPlain)
    ⟨fun h ↦ ⟨h.1, h.2.1, h.2.2⟩, fun h ↦ ⟨h.mark, h.declared, h.plain⟩⟩

/-! ## What can be scanned -/

namespace Cursor

variable {start : Nat} {content text rest : List Char} {selfClosing : Bool}

theorem past_eq_of_cutAt {word : String} {cursor : Cursor}
    (h : Text.cutAt word.toList cursor.rest = some (content, rest)) :
    ∃ next, cursor.past word = .ok next ∧ next.rest = rest := by
  rw [past, h]
  exact ⟨_, rfl, rfl⟩

private theorem exists_endsName (content rest : List Char) (selfClosing : Bool) :
    ∃ c tail, content.dropWhile (!Text.isXmlBlank ·) ++ (tagStop selfClosing ++ rest) = c :: tail ∧
      endsName c = true := by
  cases hdrop : content.dropWhile (!Text.isXmlBlank ·) with
  | nil =>
    cases selfClosing with
    | true => exact ⟨'/', _, rfl, rfl⟩
    | false => exact ⟨'>', _, rfl, rfl⟩
  | cons c tail =>
    refine ⟨c, _, rfl, endsName_of_isAsciiBlank (Text.isAsciiBlank_of_isXmlBlank ?_)⟩
    have hc := List.head?_dropWhile_not (!Text.isXmlBlank ·) content
    rw [hdrop] at hc
    simpa using hc

theorem exists_openTag {unique : Bool} {seen raws : List RawAttribute} {position : Nat}
    (hname : Text.IsName (content.takeWhile (!Text.isXmlBlank ·)))
    (hread : RawAttribute.readAll unique seen position (content.dropWhile (!Text.isXmlBlank ·)) =
      (raws, none))
    (hkeys : ∀ raw ∈ raws, ∀ c ∈ raw.key, endsName c = false) (start : Nat) (selfClosing : Bool)
    (rest : List Char) :
    ∃ attrs stop, openTag start (content ++ (tagStop selfClosing ++ rest)) =
        .ok (.openTag ⟨start + 1, content.takeWhile (!Text.isXmlBlank ·)⟩ attrs selfClosing,
          ⟨stop, rest⟩) ∧ List.Forall₂ Spells raws attrs := by
  obtain ⟨c, tail, htail, hc⟩ := exists_endsName content rest selfClosing
  have htext : content ++ (tagStop selfClosing ++ rest) =
      content.takeWhile (!Text.isXmlBlank ·) ++ c :: tail := by
    rw [← htail, ← List.append_assoc (content.takeWhile _), List.takeWhile_append_dropWhile]
  have hread' : name ⟨start + 1, content ++ (tagStop selfClosing ++ rest)⟩ = .ok
      (⟨start + 1, content.takeWhile (!Text.isXmlBlank ·)⟩,
        ⟨start + 1 + Text.byteSize (content.takeWhile (!Text.isXmlBlank ·)), c :: tail⟩) := by
    rw [htext]
    exact name_append hname.1 hname.2 hc
  obtain ⟨attrs, stop, htag, hspells⟩ := tagEnd_of_readAll hread hkeys
    start (start + 1 + Text.byteSize (content.takeWhile (!Text.isXmlBlank ·))) selfClosing rest
  rw [htail] at htag
  refine ⟨attrs, stop, ?_, hspells⟩
  rw [openTag, hread']
  dsimp only
  rw [htag]

theorem exists_closeTag (hname : Text.IsName (trimName content)) (start : Nat) (rest : List Char) :
    ∃ stop, closeTag start (content ++ '>' :: rest) =
      .ok (.closeTag ⟨start + 2, trimName content⟩, ⟨stop, rest⟩) := by
  obtain ⟨blanks, hcontent, hblanks⟩ := exists_trimName_append hname.1 hname.2
  have hblanks' := fun c hc ↦ Text.isAsciiBlank_of_isXmlBlank (hblanks c hc)
  have hread : name ⟨start + 2, content ++ '>' :: rest⟩ = .ok (⟨start + 2, trimName content⟩,
      ⟨start + 2 + Text.byteSize (trimName content), blanks ++ '>' :: rest⟩) := by
    nth_rewrite 1 [hcontent]
    rw [List.append_assoc]
    cases blanks with
    | nil => exact name_append hname.1 hname.2 rfl
    | cons b blanks =>
      exact name_append hname.1 hname.2 (endsName_of_isAsciiBlank (hblanks' b List.mem_cons_self))
  rw [closeTag, hread]
  dsimp only
  rw [skipBlanks_append hblanks' rfl]
  exact ⟨_, rfl⟩

private theorem startsDeclaration_append (content rest : List Char) :
    startsDeclaration (content ++ "?>".toList ++ rest) =
      startsDeclaration (content ++ "?>".toList) := by
  match content with
  | [] => simp [startsDeclaration, Text.stripStart?]
  | [a] => simp [startsDeclaration, Text.stripStart?]
  | [a, b] => simp [startsDeclaration, Text.stripStart?]
  | [a, b, c] =>
    simp only [startsDeclaration, String.reduceToList, List.cons_append, List.nil_append,
      Text.stripStart?]
    split_ifs <;> rfl
  | a :: b :: c :: d :: content =>
    simp only [startsDeclaration, String.reduceToList, List.cons_append, List.append_assoc,
      List.nil_append, Text.stripStart?]
    split_ifs <;> rfl

/-- Whether an instruction looks like a declaration is told by the instruction alone. -/
theorem startsDeclaration_raw {raw : List Char} (hraw : '<' :: '?' :: text = raw ++ rest)
    (hcut : Text.cutAt "?>".toList text = some (content, rest)) :
    Source.startsDeclaration raw = startsDeclaration text := by
  have htext := Text.eq_append_of_cutAt hcut
  obtain rfl : '<' :: '?' :: (content ++ "?>".toList) = raw := by
    refine List.append_cancel_right (Eq.trans ?_ hraw)
    rw [htext]
    rfl
  rw [htext, startsDeclaration_append]
  rfl

/-- Reading the pseudo-attributes of an instruction that looks like a declaration comes to reading
assignments. -/
theorem exists_pseudoAttributes_iff (hcut : Text.cutAt "?>".toList text = some (content, rest))
    (hstarts : startsDeclaration text = true) (start : Nat) :
    (∃ attrs, pseudoAttributes (start + 2 + Text.byteSize content) ⟨start + 5, text.drop 3⟩ =
      .ok attrs) ↔ Text.IsDeclared ('<' :: '?' :: text) := by
  have htext := Text.eq_append_of_cutAt hcut
  rw [htext] at hstarts
  obtain ⟨more, rfl⟩ := exists_eq_append_of_startsDeclaration hstarts
  rw [← htext] at hstarts
  obtain ⟨tail, rfl⟩ : ∃ tail, text = "xml".toList ++ tail := ⟨more ++ "?>".toList ++ rest, by
    rw [htext]
    simp⟩
  -- The keyword holds nothing of the end, so the end may be looked for behind it.
  have hcut' : Text.cutAt "?>".toList tail = some (more, rest) := by
    have hkeyword : Text.cutAt "?>".toList ("xml".toList ++ tail) =
      Text.consBefore 'x' (Text.consBefore 'm' (Text.consBefore 'l'
        (Text.cutAt "?>".toList tail))) := rfl
    rw [hkeyword] at hcut
    obtain ⟨_, hcut₁, hmore⟩ := Text.consBefore_eq_some_iff.1 hcut
    obtain ⟨_, hcut₂, rfl⟩ := Text.consBefore_eq_some_iff.1 hcut₁
    obtain ⟨front, hcut₃, rfl⟩ := Text.consBefore_eq_some_iff.1 hcut₂
    obtain rfl : more = front := by simpa using hmore
    exact hcut₃
  have hsize : start + 5 + Text.byteSize tail =
      start + 2 + Text.byteSize ("xml".toList ++ more) + (Text.byteSize rest + 2) := by
    rw [Text.eq_append_of_cutAt hcut']
    simp only [Text.byteSize_append]
    have hxml : Text.byteSize "xml".toList = 3 := rfl
    have hend : Text.byteSize "?>".toList = 2 := rfl
    omega
  have hiff : (∃ attrs, pseudoAttributes _ ⟨start + 5, tail⟩ = .ok attrs) ↔ _ :=
    pseudoAttributes_iff hsize
  constructor
  · intro h _
    exact ⟨more, rest, hcut', hiff.1 h⟩
  · intro h
    obtain ⟨content, rest', hcut'', hassigned⟩ := h hstarts
    cases hcut'.symm.trans hcut''
    exact hiff.2 hassigned

end Cursor

end XmlInspect
