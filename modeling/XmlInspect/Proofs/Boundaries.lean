import XmlInspect.Proofs.Scannable

/-!
# Character boundaries

Offsets count bytes, and most characters that are not ASCII take several. A slice of a text between
two offsets is defined only if both fall between characters, and a range of a file only if its ends
are in order. So whoever cuts and measures a text in bytes has to know that every offset in use is a
boundary. Here this is said once for all spans that the scan hands to the replay, whatever the text
is and whether or not the replay succeeds.

It rests on two facts. Boundaries are placed in the file in the order in which they are in the body,
across line ends, wide characters and the shift of the first line. And every end of a token, of its
delimiters and of its lexemes is such a boundary.
-/

namespace XmlInspect

/-! ## Slices in bytes -/

namespace Text

variable {text chars : List Char} {start stop : Nat}

/-- The characters in a span of a text, unless one of its ends falls inside a character or beyond
the end of the text, or they are in the wrong order. -/
def sliceBytes? (text : List Char) (span : Span) : Option (List Char) := do
  let rest ← dropBytes? span.start text
  let count ← if span.start ≤ span.stop then charsWithin? (span.stop - span.start) rest else none
  return rest.take count

theorem sliceBytes?_of_stands (h : Stands text start stop chars) :
    sliceBytes? text ⟨start, stop⟩ = some chars := by
  obtain ⟨before, after, rfl, rfl, rfl⟩ := h
  have hdrop : dropBytes? (byteSize before) (before ++ chars ++ after) = some (chars ++ after) := by
    rw [List.append_assoc]
    exact dropBytes?_byteSize_append _ _
  have hcount : charsWithin? (byteSize before + byteSize chars - byteSize before)
      (chars ++ after) = some chars.length := by
    rw [Nat.add_sub_cancel_left]
    exact charsWithin?_byteSize_append _ _
  simp only [sliceBytes?, hdrop, Option.bind_eq_bind, Option.bind_some, Nat.le_add_right, if_true,
    hcount, List.take_left]
  rfl

/-- Some characters in quotes, none of which is the quote. -/
def IsQuoted (chars content : List Char) : Prop :=
  ∃ quote, (quote = '"' ∨ quote = '\'') ∧ quote ∉ content ∧ chars = quote :: content ++ [quote]

theorem IsQuoted.content_eq {content : List Char} (h : IsQuoted chars content) :
    (chars.drop 1).dropLast = content := by
  obtain ⟨quote, -, -, rfl⟩ := h
  simp

/-- A quote takes one byte, so what is in quotes stands between the first byte and the last. -/
theorem IsQuoted.stands {content : List Char} (h : IsQuoted chars content) :
    Stands chars 1 (byteSize chars - 1) content := by
  obtain ⟨quote, hquote, -, rfl⟩ := h
  have hsize : byteSize [quote] = 1 := by rcases hquote with rfl | rfl <;> rfl
  refine ⟨[quote], [quote], rfl, hsize.symm, ?_⟩
  rw [byteSize_append, hsize, byteSize_cons]
  rw [byteSize_cons, byteSize_nil] at hsize
  omega

end Text

namespace AttributeLexeme.Scanned

variable {text : List Char} {attr : AttributeLexeme}

theorem exists_isQuoted (h : attr.Scanned text) :
    ∃ content, Text.IsQuoted attr.value.text content := by
  obtain ⟨cursor, next, -, hattr⟩ := h
  obtain ⟨middle, gap, last, -, -, hvalue⟩ := Cursor.attr_eq_ok hattr
  obtain ⟨quote, content, hquote, hnot, hrest⟩ := Cursor.exists_quote_of_value hvalue
  refine ⟨content, quote, hquote, hnot, (List.append_left_inj next.rest).1 ?_⟩
  rw [← (Cursor.value_eq_ok hvalue).2.rest_eq, hrest]
  simp

private theorem sliceBytes?_value (h : attr.Scanned text) :
    Text.sliceBytes? attr.value.text ⟨1, Text.byteSize attr.value.text - 1⟩ =
      some ((attr.value.text.drop 1).dropLast) := by
  obtain ⟨content, hquoted⟩ := h.exists_isQuoted
  rw [hquoted.content_eq]
  exact Text.sliceBytes?_of_stands hquoted.stands

end AttributeLexeme.Scanned

/-! ## The spans of a token -/

namespace TokenForm

/-- The attributes in a token. -/
def attributes : TokenForm → List AttributeLexeme
  | .declaration attrs => attrs
  | .openTag _ attrs _ => attrs
  | _ => []

/-- The name of a tag. -/
def tagName? : TokenForm → Option Lexeme
  | .openTag name _ _ => some name
  | .closeTag name => some name
  | _ => none

/-- The names and values in a token. -/
def lexemes (form : TokenForm) : List Lexeme :=
  form.tagName?.toList ++ form.attributes.flatMap fun attr ↦ [attr.name, attr.value]

end TokenForm

namespace Token

/-- All spans that a token hands over: its own, those of its delimiters if it is markup, and those
of its lexemes. -/
def spans (token : Token) : List Span :=
  token.span :: (if token.form = .text then [] else [token.opening, token.closing]) ++
    token.form.lexemes.map Lexeme.span

variable {text : List Char} {token : Token}

theorem Chained.scanned {tokens : List Token} {offset : Nat} (h : Chained text offset tokens)
    (hmem : token ∈ tokens) : token.Scanned text := by
  induction tokens generalizing offset with
  | nil => cases hmem
  | cons first tokens ih =>
    obtain ⟨-, hfirst, hrest⟩ := h
    rcases List.mem_cons.1 hmem with rfl | hmem
    · exact hfirst
    · exact ih hrest hmem

private theorem Chained.take {tokens : List Token} {offset : Nat} (h : Chained text offset tokens)
    (n : Nat) : Chained text offset (tokens.take n) := by
  induction n generalizing offset tokens with
  | zero => trivial
  | succ n ih =>
    cases tokens with
    | nil => trivial
    | cons first tokens => exact ⟨h.1, h.2.1, ih h.2.2⟩

namespace Scanned

theorem scanned_of_mem_attributes (h : token.Scanned text) {attr : AttributeLexeme}
    (hattr : attr ∈ token.form.attributes) : attr.Scanned text := by
  cases hform : token.form with
  | declaration attrs =>
    rw [hform] at hattr
    exact h.scanned_of_declaration hform attr hattr
  | openTag name attrs selfClosing =>
    rw [hform] at hattr
    exact (h.scanned_of_openTag hform).2 attr hattr
  | instruction | doctype | comment | cdata | text | closeTag =>
    rw [hform] at hattr
    cases hattr

private theorem stands_of_tagName? (h : token.Scanned text) {name : Lexeme}
    (hname : token.form.tagName? = some name) : name.Stands text := by
  cases hform : token.form with
  | openTag name' attrs selfClosing =>
    rw [hform] at hname
    cases hname
    exact (h.scanned_of_openTag hform).1
  | closeTag name' =>
    rw [hform] at hname
    cases hname
    obtain ⟨after, next, hin, hmarkup, -⟩ := h.exists_markup (by simp [hform])
    rw [hform] at hmarkup
    obtain ⟨rest, rfl, hclose⟩ := Cursor.reads_of_markup hmarkup
    obtain ⟨_, cursor, heq, hname, -⟩ := Cursor.closeTag_eq_ok hclose
    cases heq
    have hmoves : Cursor.Moves ⟨token.start, '<' :: '/' :: rest⟩ "</".toList
        ⟨token.start + 2, rest⟩ := ⟨rfl, rfl⟩
    exact Cursor.stands_of_name hname (hmoves.isIn hin)
  | instruction | doctype | comment | cdata | text | declaration =>
    rw [hform] at hname
    cases hname

theorem stands_of_mem_lexemes (h : token.Scanned text) {lexeme : Lexeme}
    (hlexeme : lexeme ∈ token.form.lexemes) : lexeme.Stands text := by
  rcases List.mem_append.1 hlexeme with hname | hattr
  · exact h.stands_of_tagName? (Option.mem_toList.1 hname)
  · obtain ⟨attr, hattr, hlexeme⟩ := List.mem_flatMap.1 hattr
    have hsolid := (h.scanned_of_mem_attributes hattr).solid
    rcases List.mem_pair.1 hlexeme with rfl | rfl
    · exact hsolid.name
    · exact hsolid.value

private theorem solid_of_mem_spans (h : token.Scanned text) {span : Span}
    (hspan : span ∈ token.spans) : span.Solid text := by
  rw [spans, List.cons_append, List.mem_cons, List.mem_append, List.mem_map] at hspan
  rcases hspan with rfl | hdelimiter | ⟨lexeme, hlexeme, rfl⟩
  · exact h.solid
  · split at hdelimiter
    · cases hdelimiter
    · rename_i hform
      obtain ⟨hopening, hclosing⟩ := h.solid_delimiters hform
      rcases List.mem_pair.1 hdelimiter with rfl | rfl
      · exact hopening
      · exact hclosing
  · exact (h.stands_of_mem_lexemes hlexeme).solid

end Scanned

end Token

/-! ## Parsing -/

namespace Binder

variable {tree : Tree} {body : List Char} {d : Binder}

/-- At any point of a replay, whatever becomes of it, all that is recorded holds characters. -/
theorem solid_of_foldlM (hlinked : tree.Linked) (howned : tree.Owned) (n : Nat)
    (h : ((Token.scan body).1.take n).foldlM Binder.take (Binder.initial tree) = .ok d) :
    d.spans.Solid body := by
  have hinvariant := invariant_solid hlinked howned (Token.scan body).1 body
  have hholds := (hinvariant.foldlM (fun _ hmem ↦ List.mem_of_mem_take hmem)
    ((Token.chained_of_scan body).take n)
    (Or.inl ⟨rfl, tiled_initial tree _ body, solid_initial tree body⟩)).elim h
  -- A run of text that goes on has recorded nothing yet.
  rcases hholds with ⟨-, -, hsolid⟩ | ⟨base, _, _, _, -, ⟨-, hsolid⟩, -, -, rfl⟩
  · exact hsolid
  · exact hsolid

end Binder

namespace Document

/-- No parse comes upon a range that is none. Boundaries of the body are placed in the file in their
order; the spans of every token are on boundaries and not empty, and every slice that is taken of
the text is defined; so is every span that is recorded, at any point of the replay; and parsing does
not end with an invalid range. -/
theorem parse_ne_invalidRange (source : Source) (mode : NamespaceMode) :
    (∀ {i j}, Text.Divides source.body i → Text.Divides source.body j → i < j →
      source.toFile ((Locator.of source.body).position i).1 <
        source.toFile ((Locator.of source.body).position j).1) ∧
    (∀ token ∈ (Token.scan source.body).1,
      (∀ span ∈ token.spans, span.start < span.stop ∧ span.stop ≤ Text.byteSize source.body ∧
        Text.Divides source.body span.start ∧ Text.Divides source.body span.stop) ∧
      (∀ lexeme ∈ token.form.lexemes,
        Text.sliceBytes? source.body lexeme.span = some lexeme.text) ∧
      ∀ attr ∈ token.form.attributes,
        Text.sliceBytes? attr.value.text ⟨1, Text.byteSize attr.value.text - 1⟩ =
          some ((attr.value.text.drop 1).dropLast)) ∧
    (∀ {tree}, Tree.build mode source.body = .ok tree → ∀ {n d},
      ((Token.scan source.body).1.take n).foldlM Binder.take (Binder.initial tree) = .ok d →
        d.spans.Solid source.body) ∧
    ∀ fault, parse source mode ≠ .error (.invalidRange fault) := by
  refine ⟨fun hi hj hlt ↦ Source.positionAt_lt hi hj hlt, fun token hmem ↦ ?_,
    fun {tree} hbuild n d hrun ↦ ?_, fun fault hparse ↦ ?_⟩
  · have htoken := (Token.chained_of_scan source.body).scanned hmem
    refine ⟨fun span hspan ↦ ?_, fun lexeme hlexeme ↦ ?_, fun attr hattr ↦ ?_⟩
    · have hsolid := htoken.solid_of_mem_spans hspan
      exact ⟨hsolid.start_lt_stop, hsolid.stop.le, hsolid.start, hsolid.stop⟩
    · exact Text.sliceBytes?_of_stands (htoken.stands_of_mem_lexemes hlexeme).stands
    · exact (htoken.scanned_of_mem_attributes hattr).sliceBytes?_value
  · obtain ⟨hlinked, howned⟩ := Tree.linked_of_build hbuild
    exact Binder.solid_of_foldlM hlinked howned n hrun
  · rcases parse_eq_error hparse with ⟨_, -, hfault⟩ | ⟨tree, hbuild, ⟨_, -, hfault⟩ |
      ⟨spans, hbind, _, hlocate, -⟩⟩
    · cases hfault
    · cases hfault
    · obtain ⟨hlinked, howned⟩ := Tree.linked_of_build hbuild
      obtain ⟨doc, hdoc⟩ := exists_locate_of_bind hlinked howned hbind
      rw [hlocate] at hdoc
      cases hdoc

/-- Behind a mark, a line of text and a wide name, the value of an attribute is still cut and placed
between characters. -/
theorem parse_ne_invalidRange_wide :
    let source := Source.ofChars "" .utf8 "\uFEFFé\n<?xml version='1.0'?>\n<é ü='ß€'/>".toList
    (source.toFile ((Locator.of source.body).position 29).1 <
      source.toFile ((Locator.of source.body).position 36).1) ∧
    (∃ token ∈ (Token.scan source.body).1, ∃ attr ∈ token.form.attributes,
      attr.value.text = "'ß€'".toList ∧
        Text.sliceBytes? source.body attr.value.span = some attr.value.text) ∧
    (∃ tree d, Tree.build .aware source.body = .ok tree ∧
      ((Token.scan source.body).1.take 2).foldlM Binder.take (Binder.initial tree) = .ok d ∧
        d.spans.Solid source.body) ∧
    ∀ fault, parse source .aware ≠ .error (.invalidRange fault) := by
  intro source
  obtain ⟨hplace, hscan, hreplay, hparse⟩ := parse_ne_invalidRange source .aware
  refine ⟨hplace ?_ ?_ (by decide), ?_, ?_, hparse⟩
  · exact ⟨source.body.take 27, source.body.drop 27, by decide +kernel, by decide +kernel⟩
  · exact ⟨source.body.take 31, source.body.drop 31, by decide +kernel, by decide +kernel⟩
  · have hrun : (Token.scan source.body).1.any (fun token ↦ token.form.attributes.any fun attr ↦
        attr.value.text = "'ß€'".toList && token.form.lexemes.contains attr.value) = true := by
      decide +kernel
    obtain ⟨token, hmem, hrun⟩ := List.any_eq_true.1 hrun
    obtain ⟨attr, hattr, hrun⟩ := List.any_eq_true.1 hrun
    rw [Bool.and_eq_true, decide_eq_true_eq, List.contains_iff_mem] at hrun
    exact ⟨token, hmem, attr, hattr, hrun.1, (hscan token hmem).2.1 _ hrun.2⟩
  · have hrun : (Tree.build .aware source.body).toOption.any (fun tree ↦
        (((Token.scan source.body).1.take 2).foldlM Binder.take
          (Binder.initial tree)).toOption.isSome) = true := by
      decide +kernel
    obtain ⟨tree, hbuild, hrun⟩ := exists_of_any hrun
    cases hd : ((Token.scan source.body).1.take 2).foldlM Binder.take (Binder.initial tree) with
    | error fault => rw [hd] at hrun; cases hrun
    | ok d => exact ⟨tree, d, hbuild, hd, hreplay hbuild hd⟩

end Document

end XmlInspect
