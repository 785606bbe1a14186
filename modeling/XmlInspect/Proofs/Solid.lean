import XmlInspect.Proofs.Agreement
import XmlInspect.Proofs.Tiling

/-!
# Spans hold characters

A range of a file is never empty, so moving a span into the file may fail. It does not fail for the
spans that a replay records. They come from lexemes, from tokens and from the delimiters of tokens,
all of which have characters, and the places of characters that follow each other in a body follow
each other in the file. Only the document is bound to something else, from the first to the last of
its parts, and these lie next to each other.
-/

namespace XmlInspect

/-! ## Spans and their places -/

/-- The ends of a span fall between characters of a text, and there is one between them. -/
structure Span.Solid (text : List Char) (span : Span) : Prop where
  start : Text.Divides text span.start
  stop : Text.Divides text span.stop
  start_lt_stop : span.start < span.stop

theorem Text.Stands.solid {text chars : List Char} {start stop : Nat}
    (h : Stands text start stop chars) (hne : chars ≠ []) : Span.Solid text ⟨start, stop⟩ := by
  obtain ⟨hstart, hstop⟩ := h.divides
  refine ⟨hstart, hstop, ?_⟩
  have hsize : byteSize chars ≠ 0 := mt byteSize_eq_zero_iff.1 hne
  have := h.stop_eq
  dsimp only
  omega

namespace Source

theorem positionAt_byteSize {source : Source} {a b : List Char} (h : source.body = a ++ b) :
    source.positionAt (Text.byteSize a) = (source.toFile .first).after a b := by
  rw [positionAt, placeOf, h, Locator.position_byteSize, toFile_after _ (p := .first) Nat.one_pos]

/-- Offsets between characters are placed in their order. -/
theorem positionAt_lt {source : Source} {i j : Nat} (hi : Text.Divides source.body i)
    (hj : Text.Divides source.body j) (hlt : i < j) :
    source.positionAt i < source.positionAt j := by
  obtain ⟨chars, before, after, hbody, rfl, rfl⟩ := hi.exists_stands hj (Nat.le_of_lt hlt)
  have hne : chars ≠ [] := by
    rintro rfl
    exact Nat.lt_irrefl _ hlt
  have hstart : source.positionAt (Text.byteSize before) =
      (source.toFile .first).after before (chars ++ after) :=
    positionAt_byteSize (by rw [hbody, List.append_assoc])
  have hstop : source.positionAt (Text.byteSize before + Text.byteSize chars) =
      ((source.toFile .first).after before (chars ++ after)).after chars after := by
    rw [← Text.byteSize_append, ← Position.after_append]
    exact positionAt_byteSize hbody
  rw [hstart, hstop]
  exact Position.lt_after _ after hne

theorem positionAt_le_iff {source : Source} {i j : Nat} (hi : Text.Divides source.body i)
    (hj : Text.Divides source.body j) : source.positionAt i ≤ source.positionAt j ↔ i ≤ j := by
  constructor
  · intro hle
    by_contra hlt
    exact Position.not_le_of_lt (positionAt_lt hj hi (Nat.lt_of_not_le hlt)) hle
  · intro hle
    rcases Nat.eq_or_lt_of_le hle with rfl | hlt
    · exact Position.le_refl _
    · exact Position.le_of_lt (positionAt_lt hi hj hlt)

/-- What holds characters has a range in the file. -/
theorem exists_rangeOf {source : Source} {span : Span} (h : span.Solid source.body) :
    ∃ range, source.rangeOf (Locator.of source.body) span = .ok range := by
  have hline : 0 < (source.positionAt span.start).line := by
    obtain ⟨before, after, hbody, hstart⟩ := h.start
    have hle := Position.le_after (source.toFile .first) before after
    rw [← positionAt_byteSize hbody, ← hstart, Position.le_def] at hle
    have hfirst : 0 < (source.toFile .first).line := by
      unfold toFile
      dsimp only
      split <;> exact Nat.add_pos_left Nat.one_pos _
    omega
  have hlt := positionAt_lt h.start h.stop h.start_lt_stop
  exact ⟨⟨_, _, hline, hlt⟩, TextRange.between_eq_ok_iff.2 ⟨rfl, rfl⟩⟩

end Source

/-! ## Lexemes -/

/-- A lexeme is what stands in its span, and there is something. -/
structure Lexeme.Stands (text : List Char) (lexeme : Lexeme) : Prop where
  stands : Text.Stands text lexeme.start lexeme.stop lexeme.text
  ne_nil : lexeme.text ≠ []

theorem Lexeme.Stands.solid {text : List Char} {lexeme : Lexeme} (h : lexeme.Stands text) :
    lexeme.span.Solid text :=
  h.stands.solid h.ne_nil

/-- The name and the value of an attribute stand in a text, and the name comes first. -/
structure AttributeLexeme.Solid (text : List Char) (attr : AttributeLexeme) : Prop where
  name : attr.name.Stands text
  value : attr.value.Stands text
  stop_le_start : attr.name.stop ≤ attr.value.start

namespace Cursor

variable {cursor next : Cursor} {lexeme : Lexeme} {text rest : List Char} {start stop : Nat}
  {attrs : List AttributeLexeme}

theorem stands_of_moves (h : cursor.Moves lexeme.text next) (hstart : lexeme.start = cursor.offset)
    (hin : cursor.IsIn text) : Text.Stands text lexeme.start lexeme.stop lexeme.text := by
  have hstop : lexeme.stop = next.offset := by rw [h.offset_eq, Lexeme.stop, hstart]
  rw [hstart, hstop]
  exact h.stands hin

theorem stands_of_name (h : cursor.name = .ok (lexeme, next)) (hin : cursor.IsIn text) :
    lexeme.Stands text := by
  obtain ⟨hstart, hmoves, hne, -⟩ := name_eq_ok h
  exact ⟨stands_of_moves hmoves hstart hin, hne⟩

private theorem stands_of_value (h : cursor.value = .ok (lexeme, next)) (hin : cursor.IsIn text) :
    lexeme.Stands text := by
  obtain ⟨hstart, hmoves⟩ := value_eq_ok h
  refine ⟨stands_of_moves hmoves hstart hin, ?_⟩
  unfold value at h
  split at h
  · cases h
  · split at h
    · split at h
      · cases h
        exact List.cons_ne_nil _ _
      · cases h
    · cases h

theorem solid_of_attr {attr : AttributeLexeme} (h : cursor.attr = .ok (attr, next))
    (hin : cursor.IsIn text) : attr.Solid text ∧ next.IsIn text := by
  obtain ⟨middle, gap, last, hname, hgap, hvalue⟩ := attr_eq_ok h
  obtain ⟨hstart, hmoves, -, -⟩ := name_eq_ok hname
  obtain ⟨hstart', hmoves'⟩ := value_eq_ok hvalue
  have hlast := hgap.isIn (hmoves.isIn hin)
  refine ⟨⟨stands_of_name hname hin, stands_of_value hvalue hlast, ?_⟩, hmoves'.isIn hlast⟩
  rw [hstart', Lexeme.stop, hstart, ← hmoves.offset_eq]
  exact hgap.le

end Cursor

/-- An attribute comes out of a step of the scan of a text. -/
def AttributeLexeme.Scanned (text : List Char) (attr : AttributeLexeme) : Prop :=
  ∃ cursor next : Cursor, cursor.IsIn text ∧ cursor.attr = .ok (attr, next)

theorem AttributeLexeme.Scanned.solid {text : List Char} {attr : AttributeLexeme}
    (h : attr.Scanned text) : attr.Solid text := by
  obtain ⟨cursor, next, hin, hattr⟩ := h
  exact (Cursor.solid_of_attr hattr hin).1

namespace Cursor

variable {cursor next : Cursor} {text rest : List Char} {start stop : Nat}
  {attrs : List AttributeLexeme}

private theorem scanned_of_tagEnd {selfClosing : Bool}
    (h : cursor.tagEnd start = .ok (attrs, selfClosing, next)) (hin : cursor.IsIn text) :
    ∀ attr ∈ attrs, attr.Scanned text := by
  fun_induction tagEnd start cursor generalizing attrs with
  | case1 => cases h
  | case2 =>
    cases h
    simp
  | case3 =>
    cases h
    simp
  | case4 => cases h
  | case5 => cases h
  | case6 cursor offset c rest _ _ hs lexeme middle hattr hlt tail selfClosing' last ht ih =>
    cases h
    have hblanks := (moves_skipBlanks cursor).isIn hin
    rw [hs] at hblanks
    exact List.forall_mem_cons.2
      ⟨⟨_, middle, hblanks, hattr⟩, ih ht (solid_of_attr hattr hblanks).2⟩

theorem scanned_of_pseudoAttributes (h : cursor.pseudoAttributes stop = .ok attrs)
    (hin : cursor.IsIn text) : ∀ attr ∈ attrs, attr.Scanned text := by
  fun_induction pseudoAttributes stop cursor generalizing attrs with
  | case1 => cases h
  | case2 => cases h
  | case3 cursor _ _ lexeme next hattr _ attrs' hattrs =>
    rename_i ih
    cases h
    have hblanks := (moves_skipBlanks cursor).isIn hin
    exact List.forall_mem_cons.2
      ⟨⟨_, next, hblanks, hattr⟩, ih hattrs (solid_of_attr hattr hblanks).2⟩
  | case4 =>
    cases h
    simp

/-- What makes an instruction a declaration stands before its end. -/
theorem exists_eq_append_of_startsDeclaration {content : List Char}
    (h : startsDeclaration (content ++ "?>".toList ++ rest) = true) :
    ∃ more, content = "xml".toList ++ more := by
  unfold startsDeclaration at h
  split at h
  · rename_i c tail hstrip
    have heq : content ++ '?' :: '>' :: rest = 'x' :: 'm' :: 'l' :: c :: tail := by
      simpa using Text.stripStart?_eq_some_iff.1 hstrip
    match content, heq with
    | [], heq => simp at heq
    | [_], heq => simp at heq
    | [_, _], heq => simp at heq
    | a :: b :: d :: more, heq =>
      simp only [List.cons_append, List.cons.injEq] at heq
      obtain ⟨rfl, rfl, rfl, -⟩ := heq
      exact ⟨more, rfl⟩
  · cases h

/-- What is read from an instruction, and what more if it is a declaration. -/
theorem instruction_eq_ok_iff {form : TokenForm} :
    instruction start rest = .ok (form, next) ↔ ∃ content,
      Text.cutAt "?>".toList rest = some (content, next.rest) ∧
      next.offset = start + 2 + Text.byteSize content + 2 ∧
      if startsDeclaration rest then ∃ attrs,
        pseudoAttributes (start + 2 + Text.byteSize content) ⟨start + 5, rest.drop 3⟩ = .ok attrs ∧
          form = .declaration attrs
      else form = .instruction := by
  constructor
  · intro h
    unfold instruction at h
    split at h
    · cases h
    rename_i last hpast
    obtain ⟨content, hcut, hmoves⟩ := past_eq_ok hpast
    have hoffset : last.offset = start + 2 + Text.byteSize content + 2 := by
      rw [hmoves.offset_eq, Text.byteSize_append, ← Nat.add_assoc]
      rfl
    rw [hoffset, Nat.add_sub_cancel] at h
    split at h
    · rename_i hstarts
      split at h
      · cases h
      · rename_i attrs hattrs
        cases h
        exact ⟨content, hcut, hoffset, by rw [if_pos hstarts]; exact ⟨attrs, hattrs, rfl⟩⟩
    · rename_i hstarts
      cases h
      exact ⟨content, hcut, hoffset, by rw [if_neg hstarts]⟩
  · rintro ⟨content, hcut, hoffset, hform⟩
    have hpast : past "?>" ⟨start + 2, rest⟩ = .ok next := by
      obtain ⟨offset, left⟩ := next
      cases hoffset
      simp only [past, hcut]
      rfl
    rw [instruction, hpast]
    dsimp only
    rw [hoffset, Nat.add_sub_cancel]
    split at hform
    · rename_i hstarts
      obtain ⟨attrs, hattrs, rfl⟩ := hform
      rw [if_pos hstarts, hattrs]
    · rename_i hstarts
      rw [if_neg hstarts, hform]

end Cursor

/-- What a token of a form is read from: `text` follows its `<`, and `next` stands behind it. -/
def TokenForm.Reads (start : Nat) (text : List Char) (next : Cursor) : TokenForm → Prop
  | .text => False
  | .comment => ∃ rest, text = "!--".toList ++ rest ∧
    Cursor.past "-->" ⟨start + 4, rest⟩ = .ok next
  | .cdata => ∃ rest, text = "![CDATA[".toList ++ rest ∧
    Cursor.past "]]>" ⟨start + 9, rest⟩ = .ok next
  | .doctype => ∃ rest, text = "!DOCTYPE".toList ++ rest ∧
    Cursor.doctypeEnd start 0 none ⟨start + 9, rest⟩ = .ok next
  | .instruction => ∃ rest, text = '?' :: rest ∧
    Cursor.instruction start rest = .ok (.instruction, next)
  | .declaration attrs => ∃ rest, text = '?' :: rest ∧
    Cursor.instruction start rest = .ok (.declaration attrs, next)
  | .openTag name attrs selfClosing =>
    Cursor.openTag start text = .ok (.openTag name attrs selfClosing, next)
  | .closeTag name => ∃ rest, text = '/' :: rest ∧
    Cursor.closeTag start rest = .ok (.closeTag name, next)

namespace Cursor

variable {next : Cursor} {text rest : List Char} {start : Nat} {attrs : List AttributeLexeme}
  {form : TokenForm}

private theorem form_of_instruction (h : instruction start rest = .ok (form, next)) :
    form = .instruction ∨ ∃ attrs, form = .declaration attrs := by
  obtain ⟨content, -, -, hform⟩ := instruction_eq_ok_iff.1 h
  split at hform
  · obtain ⟨attrs, -, hform⟩ := hform
    exact Or.inr ⟨attrs, hform⟩
  · exact Or.inl hform

/-- What markup is read as depends on how it starts. -/
theorem reads_of_markup (h : markup start text = .ok (form, next)) :
    form.Reads start text next := by
  unfold markup at h
  split at h
  · rename_i hstarts
    obtain ⟨rest, rfl⟩ := Text.startsWith_iff.1 hstarts
    have h : instruction start rest = .ok (form, next) := h
    rcases form_of_instruction h with rfl | ⟨attrs, rfl⟩
    · exact ⟨rest, rfl, h⟩
    · exact ⟨rest, rfl, h⟩
  split at h
  · rename_i hstarts
    obtain ⟨rest, rfl⟩ := Text.startsWith_iff.1 hstarts
    obtain ⟨cursor, hpast, heq⟩ := map_eq_ok_iff.1 h
    cases heq
    exact ⟨rest, rfl, hpast⟩
  split at h
  · rename_i hstarts
    obtain ⟨rest, rfl⟩ := Text.startsWith_iff.1 hstarts
    obtain ⟨cursor, hpast, heq⟩ := map_eq_ok_iff.1 h
    cases heq
    exact ⟨rest, rfl, hpast⟩
  split at h
  · rename_i hstarts
    obtain ⟨rest, rfl⟩ := Text.startsWith_iff.1 hstarts
    obtain ⟨cursor, hend, heq⟩ := map_eq_ok_iff.1 h
    cases heq
    exact ⟨rest, rfl, hend⟩
  split at h
  · rename_i hstarts
    obtain ⟨rest, rfl⟩ := Text.startsWith_iff.1 hstarts
    have h : closeTag start rest = .ok (form, next) := h
    obtain ⟨name, cursor, rfl, -, -⟩ := closeTag_eq_ok h
    exact ⟨rest, rfl, h⟩
  · obtain ⟨name, attrs, selfClosing, cursor, rfl, -, -⟩ := openTag_eq_ok h
    exact h

/-- A declaration is read from what follows its opening. -/
theorem exists_of_declaration (h : instruction start rest = .ok (.declaration attrs, next)) :
    ∃ more content, rest = "xml".toList ++ more ∧ more = content ++ "?>".toList ++ next.rest ∧
      pseudoAttributes (start + 5 + Text.byteSize content) ⟨start + 5, more⟩ = .ok attrs := by
  obtain ⟨content, hcut, -, hattrs⟩ := instruction_eq_ok_iff.1 h
  split at hattrs
  · rename_i hstarts
    obtain ⟨_, hattrs, heq⟩ := hattrs
    cases heq
    have hrest := Text.eq_append_of_cutAt hcut
    rw [hrest] at hstarts
    obtain ⟨content, rfl⟩ := exists_eq_append_of_startsDeclaration hstarts
    refine ⟨content ++ "?>".toList ++ next.rest, content, ?_, rfl, ?_⟩
    · rw [hrest]
      simp
    · have hsize : Text.byteSize "xml".toList = 3 := rfl
      rw [Text.byteSize_append, hsize, ← Nat.add_assoc, hrest] at hattrs
      exact hattrs
  · cases hattrs

/-- What starts and ends with a word is read as such. -/
theorem exists_raw_of_past {word : String} {raw : List Char} (front : List Char)
    (h : past word ⟨start, rest⟩ = .ok next) (hraw : front ++ rest = raw ++ next.rest) :
    ∃ middle, raw = front ++ middle ++ word.toList := by
  obtain ⟨middle, -, hmoves⟩ := past_eq_ok h
  have hrest : rest = middle ++ word.toList ++ next.rest := hmoves.rest_eq
  refine ⟨middle, List.append_cancel_right (hraw.symm.trans ?_)⟩
  rw [hrest]
  simp

end Cursor

/-! ## Tokens -/

/-- A token starts and ends with its delimiters. -/
def Token.IsDelimited (token : Token) : Prop :=
  ∃ opening middle closing, token.raw = opening ++ middle ++ closing ∧
    Text.byteSize opening = token.openingSize ∧ Text.byteSize closing = token.closingSize

namespace Token

variable {text : List Char} {token : Token}

private theorem IsDelimited.solid (h : token.IsDelimited) (htoken : token.Scanned text) :
    token.opening.Solid text ∧ token.closing.Solid text := by
  obtain ⟨opening, middle, closing, hraw, hopening, hclosing⟩ := h
  have hstands := htoken.stands
  have hstop := hstands.stop_eq
  have hne : opening ≠ [] := by
    rintro rfl
    unfold openingSize at hopening
    split at hopening <;> cases hopening
  have hne' : closing ≠ [] := by
    rintro rfl
    unfold closingSize at hclosing
    split at hclosing <;> cases hclosing
  rw [hraw] at hstands hstop
  have hstart : token.closing.start = token.start + Text.byteSize (opening ++ middle) := by
    rw [Text.byteSize_append, hclosing] at hstop
    unfold Token.closing
    dsimp only
    omega
  constructor
  · rw [Token.opening, ← hopening]
    rw [List.append_assoc] at hstands
    exact hstands.left.solid hne
  · have hsolid := hstands.right.solid hne'
    rw [← hstart] at hsolid
    exact hsolid

namespace Scanned

theorem solid (h : token.Scanned text) : token.span.Solid text :=
  h.stands.solid h.raw_ne_nil

/-- All markup has delimiters. -/
theorem isDelimited (h : token.Scanned text) (hform : token.form ≠ .text) :
    token.IsDelimited := by
  obtain ⟨after, next, -, hmarkup, hraw⟩ := h.exists_markup hform
  have hreads := Cursor.reads_of_markup hmarkup
  have hfits := h.fits
  obtain ⟨start, raw, form⟩ := token
  cases form with
  | text => exact absurd rfl hform
  | comment =>
    obtain ⟨rest, rfl, hpast⟩ := hreads
    obtain ⟨middle, hraw⟩ := Cursor.exists_raw_of_past "<!--".toList hpast hraw
    exact ⟨_, middle, _, hraw, rfl, rfl⟩
  | cdata =>
    obtain ⟨rest, rfl, hpast⟩ := hreads
    obtain ⟨middle, hraw⟩ := Cursor.exists_raw_of_past "<![CDATA[".toList hpast hraw
    exact ⟨_, middle, _, hraw, rfl, rfl⟩
  | doctype =>
    obtain ⟨content, after, next, hraw, hend, rfl⟩ := hfits
    obtain ⟨front, hfront⟩ := (Cursor.endsDoctype_of_doctypeEnd hend).exists_append
    have hcontent : content = front ++ ">".toList := by
      refine List.append_cancel_right (hfront.trans ?_)
      simp
    refine ⟨"<".toList, "!DOCTYPE".toList ++ front, ">".toList, ?_, rfl, rfl⟩
    rw [hraw, hcontent]
    simp
  | instruction =>
    obtain ⟨rest, rfl, hinstruction⟩ := hreads
    obtain ⟨content, hcut, -, -⟩ := Cursor.instruction_eq_ok_iff.1 hinstruction
    refine ⟨"<".toList, '?' :: content, "?>".toList, ?_, rfl, rfl⟩
    refine List.append_cancel_right (hraw.symm.trans ?_)
    rw [Text.eq_append_of_cutAt hcut]
    simp
  | declaration attrs =>
    obtain ⟨rest, rfl, hinstruction⟩ := hreads
    obtain ⟨more, content, rfl, hcut, -⟩ := Cursor.exists_of_declaration hinstruction
    refine ⟨"<?xml".toList, content, "?>".toList, ?_, rfl, rfl⟩
    refine List.append_cancel_right (hraw.symm.trans ?_)
    rw [hcut]
    simp
  | openTag name attrs selfClosing =>
    obtain ⟨-, ⟨front, hraw⟩, -⟩ := hfits
    refine ⟨"<".toList, name.text ++ front, Cursor.tagStop selfClosing, ?_, rfl, ?_⟩
    · rw [hraw]
      simp
    · cases selfClosing <;> rfl
  | closeTag name =>
    obtain ⟨blanks, -, hraw⟩ := hfits
    refine ⟨"<".toList, '/' :: name.text ++ blanks, ">".toList, ?_, rfl, rfl⟩
    rw [hraw]
    simp

theorem solid_delimiters (h : token.Scanned text) (hform : token.form ≠ .text) :
    token.opening.Solid text ∧ token.closing.Solid text :=
  (h.isDelimited hform).solid h

/-- The pseudo-attributes of a declaration are read in the text. -/
theorem scanned_of_declaration {attrs : List AttributeLexeme} (h : token.Scanned text)
    (hform : token.form = .declaration attrs) : ∀ attr ∈ attrs, attr.Scanned text := by
  obtain ⟨after, next, hin, hmarkup, -⟩ := h.exists_markup (by simp [hform])
  rw [hform] at hmarkup
  obtain ⟨rest, rfl, hinstruction⟩ := Cursor.reads_of_markup hmarkup
  obtain ⟨more, content, rfl, -, hattrs⟩ := Cursor.exists_of_declaration hinstruction
  have hmoves : Cursor.Moves ⟨token.start, '<' :: ("?xml".toList ++ more)⟩ "<?xml".toList
      ⟨token.start + 5, more⟩ := ⟨rfl, rfl⟩
  exact Cursor.scanned_of_pseudoAttributes hattrs (hmoves.isIn hin)

/-- The name and the attributes of an opening tag are read in the text. -/
theorem scanned_of_openTag {name : Lexeme} {attrs : List AttributeLexeme} {selfClosing : Bool}
    (h : token.Scanned text) (hform : token.form = .openTag name attrs selfClosing) :
    name.Stands text ∧ ∀ attr ∈ attrs, attr.Scanned text := by
  obtain ⟨after, next, hin, hmarkup, -⟩ := h.exists_markup (by simp [hform])
  rw [hform] at hmarkup
  obtain ⟨_, _, _, cursor, heq, hname, htag⟩ :=
    Cursor.openTag_eq_ok (Cursor.reads_of_markup hmarkup)
  cases heq
  have hin' := (Cursor.moves_char token.start '<' after).isIn hin
  exact ⟨Cursor.stands_of_name hname hin',
    Cursor.scanned_of_tagEnd htag ((Cursor.name_eq_ok hname).2.1.isIn hin')⟩

end Scanned

end Token

/-! ## What is recorded -/

/-- All parts that are known hold characters. -/
def Ranges.Solid (text : List Char) (ranges : Ranges Span) : Prop :=
  ∀ slot span, ranges.get slot = some span → span.Solid text

theorem Ranges.solid_empty (text : List Char) : Ranges.empty.Solid text := by
  intro slot span hspan
  rw [get_empty] at hspan
  cases hspan

theorem Ranges.Solid.set {text : List Char} {ranges : Ranges Span} {span : Span}
    (h : ranges.Solid text) (slot : Slot) (hspan : span.Solid text) :
    (ranges.set slot span).Solid text := by
  intro slot' span' hspan'
  rw [get_set] at hspan'
  split at hspan'
  · cases hspan'
    exact hspan
  · exact h slot' span' hspan'

private theorem AttributeLexeme.Solid.places {text : List Char} {attr : AttributeLexeme}
    (h : attr.Solid text) : attr.places.Solid text := by
  have hname := h.name.solid
  have hvalue := h.value.solid
  have hlt : attr.name.start < attr.name.stop := hname.start_lt_stop
  have hlt' : attr.value.start < attr.value.stop := hvalue.start_lt_stop
  have hle := h.stop_le_start
  have hwhole : Span.Solid text ⟨attr.name.start, attr.value.stop⟩ :=
    ⟨hname.start, hvalue.stop, by dsimp only; omega⟩
  exact (((Ranges.solid_empty text).set .whole hwhole).set .name hname).set .value hvalue

/-- The parts of a declaration hold characters. -/
structure PrologSpans.Solid (text : List Char) (prolog : PrologSpans) : Prop where
  whole : prolog.whole.Solid text
  opening : prolog.opening.Solid text
  closing : prolog.closing.Solid text
  attributes : ∀ attr ∈ prolog.attributes, attr.Solid text

namespace TreeSpans

/-- All that is recorded holds characters. -/
structure Solid (text : List Char) (spans : TreeSpans) : Prop where
  nodes : ∀ ranges ∈ spans.nodes, ranges.Solid text
  attributes : ∀ ranges ∈ spans.attributes, ranges.Solid text
  prolog : ∀ {prolog}, spans.prolog = some prolog → prolog.Solid text

namespace Solid

variable {text : List Char} {spans : TreeSpans} {ranges : Ranges Span}

theorem row (h : spans.Solid text) (id : NodeId) : (spans.ranges id).Solid text := by
  rw [TreeSpans.ranges, Array.getD_eq_getD_getElem?]
  cases hrow : spans.nodes[id]? with
  | none => exact Ranges.solid_empty text
  | some ranges => exact h.nodes ranges (Array.mem_of_getElem? hrow)

theorem fill (h : spans.Solid text) (id : NodeId) (hranges : ranges.Solid text) :
    (spans.fill id ranges).Solid text := by
  refine ⟨fun row hrow ↦ ?_, h.attributes, h.prolog⟩
  rcases Array.mem_or_eq_of_mem_setIfInBounds hrow with hrow | rfl
  · exact h.nodes row hrow
  · exact hranges

theorem fillAttr (h : spans.Solid text) (id : AttrId) (hranges : ranges.Solid text) :
    (spans.fillAttr id ranges).Solid text := by
  refine ⟨h.nodes, fun row hrow ↦ ?_, h.prolog⟩
  rcases Array.mem_or_eq_of_mem_setIfInBounds hrow with hrow | rfl
  · exact h.attributes row hrow
  · exact hranges

theorem fillAttrs (h : spans.Solid text) (ids : List AttrId) {attrs : List AttributeLexeme}
    (hattrs : ∀ attr ∈ attrs, attr.Solid text) : (spans.fillAttrs ids attrs).Solid text := by
  fun_induction TreeSpans.fillAttrs spans ids attrs with
  | case1 spans id ids attr attrs ih =>
    obtain ⟨hattr, hattrs⟩ := List.forall_mem_cons.1 hattrs
    exact ih (h.fillAttr id (hattr.places)) hattrs
  | case2 => exact h

end Solid

end TreeSpans

namespace Binder

variable {tree : Tree} {text : List Char} {d d' : Binder}

theorem solid_initial (tree : Tree) (text : List Char) : (initial tree).spans.Solid text where
  nodes ranges hranges := by
    rw [initial, Array.mem_replicate] at hranges
    rw [hranges.2]
    exact Ranges.solid_empty text
  attributes ranges hranges := by
    rw [initial, Array.mem_replicate] at hranges
    rw [hranges.2]
    exact Ranges.solid_empty text
  prolog h := by cases h

theorem solid_of_binds {expected : Expected} {ranges : Ranges Span} (h : d.spans.Solid text)
    (hranges : ranges.Solid text) (hbinds : d.Binds expected ranges d') : d'.spans.Solid text := by
  obtain ⟨id, kind, -, rfl⟩ := hbinds
  exact h.fill id hranges

theorem solid_of_leaves {token : Token} {written : Lexeme} (h : d.spans.Solid text)
    (hlinked : tree.Linked) (hfilled : Filled tree d token.start) (htoken : token.Scanned text)
    (hleaves : d.Leaves token written d') : d'.spans.Solid text := by
  obtain ⟨visit, outer, opening, name, houter, hranges, -, -, rfl⟩ := hleaves
  have hplaces := h.row d.current.node
  rw [hranges] at hplaces
  have hopening : opening.Solid text := hplaces .opening opening rfl
  have hwhole : Span.Solid text ⟨opening.start, token.stop⟩ := by
    refine ⟨hopening.start, htoken.solid.stop, ?_⟩
    have hle := hfilled.stop_le hlinked (by simp [houter]) hranges
    have hlt := hopening.start_lt_stop
    have hlt' := htoken.start_lt_stop
    dsimp only
    omega
  exact h.fill _ ((hplaces.set .whole hwhole).set .closing htoken.solid)

/-- All that is recorded holds characters, throughout a replay. -/
theorem invariant_solid (hlinked : tree.Linked) (howned : tree.Owned) (tokens : List Token)
    (text : List Char) : Invariant tokens text fun d offset ↦
      Tiled tree tokens text d offset ∧ d.spans.Solid text :=
  have htiled := invariant_tiled hlinked howned tokens text
  have hempty := Ranges.solid_empty text
  { ready := fun h ↦ htiled.ready h.1
    bindsText := fun h hrun hends hbinds ↦ by
      obtain ⟨chars, hne, hstands⟩ := hrun.exists_stands
      exact ⟨htiled.bindsText h.1 hrun hends hbinds,
        solid_of_binds h.2 (hempty.set .whole (hstands.solid hne)) hbinds⟩
    takes := fun {d d' token} h hmem htoken htakes ↦ by
      refine ⟨htiled.takes h.1 hmem htoken htakes, ?_⟩
      have hsolid := h.2
      have hwhole := hempty.set .whole htoken.solid
      unfold Takes at htakes
      split at htakes
      · cases htakes
      · rename_i attrs hform
        obtain ⟨-, -, rfl⟩ := htakes
        obtain ⟨hopening, hclosing⟩ := htoken.solid_delimiters (by simp [hform])
        refine ⟨hsolid.nodes, hsolid.attributes, ?_⟩
        rintro _ hprolog
        cases hprolog
        exact ⟨htoken.solid, hopening, hclosing,
          fun attr hattr ↦ (htoken.scanned_of_declaration hform attr hattr).solid⟩
      · rw [htakes]
        exact hsolid
      · exact solid_of_binds hsolid hwhole htakes
      · rename_i hform
        obtain ⟨hopening, hclosing⟩ := htoken.solid_delimiters (by simp [hform])
        exact solid_of_binds hsolid ((hwhole.set .opening hopening).set .closing hclosing) htakes
      · rename_i hform
        obtain ⟨hopening, hclosing⟩ := htoken.solid_delimiters (by simp [hform])
        exact solid_of_binds hsolid ((hwhole.set .opening hopening).set .closing hclosing) htakes
      · rename_i name attrs hform
        obtain ⟨id, ids, -, rfl⟩ := htakes
        obtain ⟨hname, hattrs⟩ := htoken.scanned_of_openTag hform
        have hclosing := (htoken.solid_delimiters (by simp [hform])).2
        exact (hsolid.fill id (((hwhole.set .opening htoken.solid).set .closing hclosing).set .name
          hname.solid)).fillAttrs ids fun attr hattr ↦ (hattrs attr hattr).solid
      · rename_i name attrs hform
        obtain ⟨id, ids, -, rfl⟩ := htakes
        obtain ⟨hname, hattrs⟩ := htoken.scanned_of_openTag hform
        exact (hsolid.fill id ((hempty.set .opening htoken.solid).set .name hname.solid)).fillAttrs
          ids fun attr hattr ↦ (hattrs attr hattr).solid
      · exact solid_of_leaves hsolid hlinked h.1.toFilled htoken htakes }

/-! ## The end -/

private theorem le_of_gap {tokens : List Token} {start stop : Nat}
    (h : Gap tokens text start stop) : start ≤ stop := by
  obtain ⟨parts, -, hstands⟩ := h
  rw [hstands.stop_eq]
  exact Nat.le_add_right _ _

/-- The first of some spans that lie next to each other starts before the last one stops. -/
theorem start_lt_stop_of_tiles {spans : TreeSpans} {gap : Nat → Nat → Prop} {ids : List NodeId}
    {tiles : List Span} {start stop : Nat} {first last : Span}
    (hwhole : List.Forall₂ (fun child span ↦ (spans.ranges child).whole = some span) ids tiles)
    (htiles : Tiles Span.start Span.stop gap start tiles stop)
    (hgap : ∀ {a b}, gap a b → a ≤ b) (hsolid : spans.Solid text)
    (hfirst : (ids.head?.bind fun id ↦ (spans.ranges id).whole) = some first)
    (hlast : (ids.getLast?.bind fun id ↦ (spans.ranges id).whole) = some last) :
    first.start < last.stop := by
  induction hwhole generalizing first start with
  | nil => cases hfirst
  | @cons id tile ids tiles htile hrest ih =>
    obtain rfl : tile = first := Option.some.inj (htile.symm.trans hfirst)
    have hlt := (hsolid.row id .whole tile htile).start_lt_stop
    cases hrest with
    | nil =>
      obtain rfl : tile = last := Option.some.inj (htile.symm.trans hlast)
      exact hlt
    | @cons next other _ _ hother _ =>
      have hle := hgap htiles.2.1
      have hlt' := ih htiles.2 hother hlast
      omega

/-- The document is bound to something that holds characters. -/
theorem solid_of_rootSpan? {tokens : List Token} {offset : Nat} {whole : Span}
    (h : Tiled tree tokens text d offset) (hsolid : d.spans.Solid text) (houter : d.outer = [])
    (hvisited : d.current.visited = (d.tree.children d.current.node).length)
    (hwhole : d.rootSpan? = some whole) : whole.Solid text := by
  have hroot := h.current_eq_root houter
  unfold rootSpan? at hwhole
  dsimp only at hwhole
  split at hwhole
  · rename_i first last hfirst hlast
    cases hwhole
    have hend : ∀ {id : Option NodeId} {span},
        (id.bind fun id ↦ (d.spans.ranges id).whole) = some span → span.Solid text := by
      intro id span hspan
      obtain ⟨id, -, hspan⟩ := Option.bind_eq_some_iff.1 hspan
      exact hsolid.row id .whole span hspan
    cases hprolog : d.spans.prolog with
    | some prolog =>
      -- With a declaration the document starts at the start of the text.
      rw [hprolog] at hfirst hlast
      cases hfirst
      have hstart := (h.prolog hprolog).2.1
      have hlast' : last.Solid text := by
        rcases Option.or_eq_some_iff.1 hlast with hlast | ⟨-, hlast⟩
        · exact hend hlast
        · cases hlast
          exact (hsolid.prolog hprolog).closing
      refine ⟨(hsolid.prolog hprolog).opening.start, hlast'.stop, ?_⟩
      have := hlast'.start_lt_stop
      dsimp only
      omega
    | none =>
      -- Without one it goes from its first child to its last.
      rw [hprolog, Option.map_none, Option.none_or] at hfirst
      rw [hprolog, Option.map_none, Option.or_none] at hlast
      have hnested := h.nested
      rw [houter] at hnested
      obtain ⟨tiles, hwhole, htiles⟩ := hnested
      rw [← h.tree_eq, hvisited, List.take_length, hroot] at hwhole
      have hlt : first.start < last.stop :=
        start_lt_stop_of_tiles hwhole htiles le_of_gap hsolid hfirst hlast
      exact ⟨(hend hfirst).start, (hend hlast).stop, hlt⟩
  · cases hwhole

end Binder

/-! ## In the file -/

section

variable {ε α β : Type} {f : α → Except ε β}

private theorem exists_array_mapM {xs : Array α} (h : ∀ a ∈ xs, ∃ b, f a = .ok b) :
    ∃ ys, xs.mapM f = .ok ys := by
  obtain ⟨l, hl, -⟩ := exists_mapM_eq_ok fun a ha ↦ (h a (Array.mem_toList_iff.1 ha)).imp
    fun _ hb ↦ ⟨hb, trivial⟩
  rw [Array.mapM_eq_mapM_toList, hl]
  exact ⟨l.toArray, rfl⟩

theorem Ranges.exists_mapPlace {place : Option α} (h : ∀ a, place = some a → ∃ b, f a = .ok b) :
    ∃ place', mapPlace f place = .ok place' := by
  cases place with
  | none => exact ⟨none, rfl⟩
  | some a =>
    obtain ⟨b, hb⟩ := h a rfl
    exact ⟨some b, by rw [mapPlace, hb]⟩

end

namespace Source

variable {source : Source}

private theorem exists_mapM_rangeOf {ranges : Ranges Span} (h : ranges.Solid source.body) :
    ∃ ranges', ranges.mapM (source.rangeOf (Locator.of source.body)) = .ok ranges' := by
  have hplace := fun slot ↦ Ranges.exists_mapPlace fun span hspan ↦
    exists_rangeOf (h slot span hspan)
  obtain ⟨whole, hwhole⟩ := hplace .whole
  obtain ⟨opening, hopening⟩ := hplace .opening
  obtain ⟨closing, hclosing⟩ := hplace .closing
  obtain ⟨name, hname⟩ := hplace .name
  obtain ⟨value, hvalue⟩ := hplace .value
  exact ⟨_, bind_eq_ok_iff.2 ⟨whole, hwhole, bind_eq_ok_iff.2 ⟨opening, hopening,
    bind_eq_ok_iff.2 ⟨closing, hclosing, bind_eq_ok_iff.2 ⟨name, hname,
      bind_eq_ok_iff.2 ⟨value, hvalue, rfl⟩⟩⟩⟩⟩⟩

private theorem exists_locateAttribute {attr : AttributeLexeme} (h : attr.Solid source.body) :
    ∃ located, source.locateAttribute (Locator.of source.body) attr = .ok located := by
  obtain ⟨name, hname⟩ := exists_rangeOf h.name.solid
  obtain ⟨value, hvalue⟩ := exists_rangeOf h.value.solid
  exact ⟨_, bind_eq_ok_iff.2 ⟨name, hname, bind_eq_ok_iff.2 ⟨value, hvalue, rfl⟩⟩⟩

private theorem exists_locateProlog {prolog : PrologSpans} (h : prolog.Solid source.body) :
    ∃ located, source.locateProlog (Locator.of source.body) prolog = .ok located := by
  obtain ⟨whole, hwhole⟩ := exists_rangeOf h.whole
  obtain ⟨opening, hopening⟩ := exists_rangeOf h.opening
  obtain ⟨closing, hclosing⟩ := exists_rangeOf h.closing
  obtain ⟨attrs, hattrs, -⟩ := exists_mapM_eq_ok fun attr hattr ↦
    (exists_locateAttribute (h.attributes attr hattr)).imp fun _ hlocated ↦ ⟨hlocated, trivial⟩
  exact ⟨_, bind_eq_ok_iff.2 ⟨whole, hwhole, bind_eq_ok_iff.2 ⟨opening, hopening,
    bind_eq_ok_iff.2 ⟨closing, hclosing, bind_eq_ok_iff.2 ⟨attrs, hattrs, rfl⟩⟩⟩⟩⟩

end Source

namespace Document

variable {source : Source} {tree : Tree} {spans : TreeSpans}

private theorem exists_locate (h : spans.Solid source.body) :
    ∃ doc, locate source tree spans = .ok doc := by
  obtain ⟨nodes, hnodes⟩ := exists_array_mapM fun ranges hranges ↦
    Source.exists_mapM_rangeOf (h.nodes ranges hranges)
  obtain ⟨attrs, hattrs⟩ := exists_array_mapM fun ranges hranges ↦
    Source.exists_mapM_rangeOf (h.attributes ranges hranges)
  obtain ⟨prolog, hprolog⟩ := Ranges.exists_mapPlace fun prolog hprolog ↦
    Source.exists_locateProlog (h.prolog hprolog)
  exact ⟨_, bind_eq_ok_iff.2 ⟨nodes, hnodes, bind_eq_ok_iff.2 ⟨attrs, hattrs,
    bind_eq_ok_iff.2 ⟨prolog, hprolog, rfl⟩⟩⟩⟩

/-- What a replay records can be moved into the file. -/
theorem exists_locate_of_bind (hlinked : tree.Linked) (howned : tree.Owned)
    (h : Document.bind tree source.body = .ok spans) :
    ∃ doc, locate source tree spans = .ok doc := by
  obtain ⟨last, ⟨htiled, hsolid⟩, houter, hvisited, whole, hwhole, rfl⟩ := exists_last_of_bind
    (Binder.invariant_solid hlinked howned _ source.body) (fun h ↦ h.1.root)
    ⟨Binder.tiled_initial tree _ source.body, Binder.solid_initial tree source.body⟩ h
  have hsolid' := Binder.solid_of_rootSpan? htiled hsolid houter hvisited hwhole
  exact exists_locate (hsolid.fill _ ((Ranges.solid_empty _).set .whole hsolid'))

end Document

end XmlInspect
