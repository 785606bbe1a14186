import XmlInspect.Markup.Fault

/-!
# Pieces

A text is cut into pieces of markup and runs of text between them. Cutting looks only for the
end of each piece, and each kind of markup has its own rule for that: the end of a comment is a
word, the end of a tag must stand outside quotes, the end of a document type declaration balances
the angle brackets before it and looks at nothing else.

A piece keeps what it was cut from, so that the pieces of a text concatenate to the text.
Cutting stops at the first fault; the pieces before it remain.
-/

namespace XmlInspect.Markup

/-! ## What a piece is -/

/-- The kinds of pieces and their content. -/
inductive Form where
  | text
  /-- The content of an opening tag without the slash that closes it at once. -/
  | openTag (content : List Char) (selfClosing : Bool)
  /-- The name in a closing tag, without blanks after it. -/
  | closeTag (name : List Char)
  | comment (content : List Char)
  | cdata (content : List Char)
  /-- What follows the keyword and the blanks after it. -/
  | doctype (content : List Char)
  | declaration
  | instruction
  deriving DecidableEq, Repr

/-- A piece of a text. -/
structure Piece where
  /-- The offset of the piece in the text. -/
  start : Nat
  /-- The characters of the piece. -/
  raw : List Char
  form : Form
  deriving DecidableEq, Repr

/-- The offset just past a piece. -/
def Piece.stop (piece : Piece) : Nat := piece.start + Text.byteSize piece.raw

/-- A fault and the offset that it is reported at. -/
structure Located (α : Type) where
  offset : Nat
  value : α
  deriving DecidableEq, Repr

/-! ## Ends of markup -/

/-- Cuts at the first `>` outside quotes, where `quote` is the quote that is open. -/
def cutTag (quote : Option Char) : List Char → Option (List Char × List Char)
  | [] => none
  | c :: rest =>
    match quote with
    | none =>
      if c = '>' then some ([], rest)
      else
        let quote := if c = '"' ∨ c = '\'' then some c else none
        Text.consBefore c (cutTag quote rest)
    | some q => Text.consBefore c (cutTag (if c = q then none else some q) rest)

/-- Cuts at the first `>` that no `<` before it matches, where `depth` brackets are open. -/
def cutBalanced (depth : Nat) : List Char → Option (List Char × List Char)
  | [] => none
  | c :: rest =>
    if c = '<' then
      Text.consBefore c (cutBalanced (depth + 1) rest)
    else if c = '>' then
      match depth with
      | 0 => some ([], rest)
      | depth + 1 => Text.consBefore c (cutBalanced depth rest)
    else
      Text.consBefore c (cutBalanced depth rest)

/-- Removes a word from the front of a text, ASCII case aside. The word is in upper case. -/
def stripKeyword? : List Char → List Char → Option (List Char)
  | [], text => some text
  | _ :: _, [] => none
  | w :: word, c :: text => if c.toUpper = w then stripKeyword? word text else none

/-- The number of bytes between the first hyphen in a comment that has another after it and the
hyphen before that, or the start of the comment. The comment's own end counts as hyphens. -/
def doubledHyphen? (gap : Nat) : List Char → Option Nat
  | [] => none
  | '-' :: rest =>
    match rest with
    | [] => some gap
    | next :: _ => if next = '-' then some gap else doubledHyphen? 0 rest
  | c :: rest => doubledHyphen? (gap + c.utf8Size) rest

/-- Removes blanks after a name, unless there are only blanks. -/
def trimName (content : List Char) : List Char :=
  if content.all Text.isXmlBlank then content else Text.trimEnd Text.isXmlBlank content

/-! ## The first piece -/

/-- The form of the first piece of a text and what follows it, or a fault with its offset. -/
abbrev Cut := Except (Located Fault) (Form × List Char)

/-- A fault at the start of the piece. -/
def faultAtStart (fault : Fault) : Cut := .error ⟨0, fault⟩

/-- Cuts what starts with `<!--`, given what follows that. -/
def cutComment (text : List Char) : Cut :=
  match Text.cutAt "-->".toList text with
  | none => faultAtStart .unclosedComment
  | some (content, rest) =>
    match doubledHyphen? 0 content with
    | some gap => .error ⟨4 + gap, .doubleHyphen⟩
    | none => .ok (.comment content, rest)

/-- Cuts what starts with `<![CDATA[`, given what follows that. -/
def cutCdata (text : List Char) : Cut :=
  match Text.cutAt "]]>".toList text with
  | none => faultAtStart .unclosedCdata
  | some (content, rest) => .ok (.cdata content, rest)

/-- Cuts what starts with `<!DOCTYPE`, given what follows that. -/
def cutDoctype (text : List Char) : Cut :=
  match cutBalanced 0 text with
  | none => faultAtStart .unclosedDoctype
  | some (content, rest) =>
    match content.dropWhile Text.isXmlBlank with
    | [] => .error ⟨9 + Text.byteSize content, .doctypeWithoutName⟩
    | content => .ok (.doctype content, rest)

/-- Cuts what starts with `<!`, given what follows that. The next character decides what the
markup should be; if it then is not spelled out, it counts as never closed. -/
def cutBang (text : List Char) : Cut :=
  match text with
  | '-' :: _ =>
    match Text.stripStart? "--".toList text with
    | some rest => cutComment rest
    | none => faultAtStart .unclosedComment
  | '[' :: _ =>
    match Text.stripStart? "[CDATA[".toList text with
    | some rest => cutCdata rest
    | none => faultAtStart .unclosedCdata
  | c :: _ =>
    if c.toUpper = 'D' then
      match stripKeyword? "DOCTYPE".toList text with
      | some rest => cutDoctype rest
      | none => faultAtStart .unclosedDoctype
    else
      faultAtStart .unknownMarkup
  | [] => faultAtStart .unknownMarkup

/-- Whether the content of an instruction makes it a declaration. -/
def isDeclaration (content : List Char) : Bool :=
  match Text.stripStart? "xml".toList content with
  | some [] => true
  | some (c :: _) => Text.isXmlBlank c
  | none => false

/-- Cuts what starts with `<?`, given what follows that. The question mark of the start cannot
serve as that of the end. -/
def cutInstruction (text : List Char) : Cut :=
  match text with
  | '>' :: _ => faultAtStart .unclosedInstruction
  | _ =>
    match Text.cutAt "?>".toList text with
    | none => faultAtStart .unclosedInstruction
    | some (content, rest) =>
      .ok (if isDeclaration content then .declaration else .instruction, rest)

/-- Cuts what starts with `</`, given what follows that. -/
def cutCloseTag (text : List Char) : Cut :=
  match cutTag none text with
  | none => faultAtStart .unclosedTag
  | some (content, rest) => .ok (.closeTag (trimName content), rest)

/-- Cuts an opening tag, given what follows its `<`. -/
def cutOpenTag (text : List Char) : Cut :=
  match cutTag none text with
  | none => faultAtStart .unclosedTag
  | some (content, rest) =>
    if content.getLast? = some '/' then
      .ok (.openTag content.dropLast true, rest)
    else
      .ok (.openTag content false, rest)

/-- Cuts markup, given what follows its `<`. -/
def cutMarkup (text : List Char) : Cut :=
  match text with
  | [] => faultAtStart .unclosedTag
  | '!' :: rest => cutBang rest
  | '?' :: rest => cutInstruction rest
  | '/' :: rest => cutCloseTag rest
  | _ => cutOpenTag text

namespace Piece

/-- Cuts the first piece off a text that is not empty. -/
def cutFirst (c : Char) (text : List Char) : Cut :=
  if c = '<' then cutMarkup text else .ok (.text, text.dropWhile (· != '<'))

end Piece

/-! ## Progress -/

theorem eq_append_of_cutTag {quote : Option Char} {text content rest : List Char}
    (h : cutTag quote text = some (content, rest)) : text = content ++ '>' :: rest := by
  induction text generalizing quote content with
  | nil => simp [cutTag] at h
  | cons c text ih =>
    unfold cutTag at h
    split at h
    · split at h
      · rename_i hc
        cases h
        simp [hc]
      · obtain ⟨b, hb, rfl⟩ := Text.consBefore_eq_some_iff.1 h
        simp [ih hb]
    · obtain ⟨b, hb, rfl⟩ := Text.consBefore_eq_some_iff.1 h
      simp [ih hb]

theorem eq_append_of_cutBalanced {depth : Nat} {text content rest : List Char}
    (h : cutBalanced depth text = some (content, rest)) : text = content ++ '>' :: rest := by
  induction text generalizing depth content with
  | nil => simp [cutBalanced] at h
  | cons c text ih =>
    unfold cutBalanced at h
    split at h
    · obtain ⟨b, hb, rfl⟩ := Text.consBefore_eq_some_iff.1 h
      simp [ih hb]
    · split at h
      · split at h
        · rename_i hc _
          cases h
          simp [hc]
        · obtain ⟨b, hb, rfl⟩ := Text.consBefore_eq_some_iff.1 h
          simp [ih hb]
      · obtain ⟨b, hb, rfl⟩ := Text.consBefore_eq_some_iff.1 h
        simp [ih hb]

theorem suffix_of_cutTag {quote : Option Char} {text content rest : List Char}
    (h : cutTag quote text = some (content, rest)) : rest <:+ text :=
  ⟨content ++ ['>'], by simp [eq_append_of_cutTag h]⟩

theorem suffix_of_cutBalanced {depth : Nat} {text content rest : List Char}
    (h : cutBalanced depth text = some (content, rest)) : rest <:+ text :=
  ⟨content ++ ['>'], by simp [eq_append_of_cutBalanced h]⟩

theorem suffix_of_stripKeyword? {word text rest : List Char}
    (h : stripKeyword? word text = some rest) : rest <:+ text := by
  induction word generalizing text with
  | nil =>
    cases h
    exact List.suffix_refl _
  | cons w word ih =>
    cases text with
    | nil => cases h
    | cons c text =>
      unfold stripKeyword? at h
      split at h
      · exact (ih h).trans (List.suffix_cons c text)
      · cases h

theorem suffix_of_cutComment {text rest : List Char} {form : Form}
    (h : cutComment text = .ok (form, rest)) : rest <:+ text := by
  unfold cutComment at h
  split at h
  · cases h
  · rename_i hc
    split at h
    · cases h
    · cases h
      exact Text.suffix_of_cutAt hc

theorem suffix_of_cutCdata {text rest : List Char} {form : Form}
    (h : cutCdata text = .ok (form, rest)) : rest <:+ text := by
  unfold cutCdata at h
  split at h
  · cases h
  · rename_i hc
    cases h
    exact Text.suffix_of_cutAt hc

theorem suffix_of_cutDoctype {text rest : List Char} {form : Form}
    (h : cutDoctype text = .ok (form, rest)) : rest <:+ text := by
  unfold cutDoctype at h
  split at h
  · cases h
  · rename_i hc
    split at h
    · cases h
    · cases h
      exact suffix_of_cutBalanced hc

theorem suffix_of_cutBang {text rest : List Char} {form : Form}
    (h : cutBang text = .ok (form, rest)) : rest <:+ text := by
  unfold cutBang at h
  split at h
  · split at h
    · rename_i hs
      exact (suffix_of_cutComment h).trans (Text.suffix_of_stripStart? hs)
    · cases h
  · split at h
    · rename_i hs
      exact (suffix_of_cutCdata h).trans (Text.suffix_of_stripStart? hs)
    · cases h
  · split at h
    · split at h
      · rename_i hs
        exact (suffix_of_cutDoctype h).trans (suffix_of_stripKeyword? hs)
      · cases h
    · cases h
  · cases h

theorem suffix_of_cutInstruction {text rest : List Char} {form : Form}
    (h : cutInstruction text = .ok (form, rest)) : rest <:+ text := by
  unfold cutInstruction at h
  split at h
  · cases h
  · split at h
    · cases h
    · rename_i hc
      cases h
      exact Text.suffix_of_cutAt hc

theorem suffix_of_cutCloseTag {text rest : List Char} {form : Form}
    (h : cutCloseTag text = .ok (form, rest)) : rest <:+ text := by
  unfold cutCloseTag at h
  split at h
  · cases h
  · rename_i hc
    cases h
    exact suffix_of_cutTag hc

theorem suffix_of_cutOpenTag {text rest : List Char} {form : Form}
    (h : cutOpenTag text = .ok (form, rest)) : rest <:+ text := by
  unfold cutOpenTag at h
  split at h
  · cases h
  · rename_i hc
    split at h
    all_goals
      cases h
      exact suffix_of_cutTag hc

theorem suffix_of_cutMarkup {text rest : List Char} {form : Form}
    (h : cutMarkup text = .ok (form, rest)) : rest <:+ text := by
  unfold cutMarkup at h
  split at h
  · cases h
  · exact (suffix_of_cutBang h).trans (List.suffix_cons _ _)
  · exact (suffix_of_cutInstruction h).trans (List.suffix_cons _ _)
  · exact (suffix_of_cutCloseTag h).trans (List.suffix_cons _ _)
  · exact suffix_of_cutOpenTag h

namespace Piece

/-- A cut takes the text apart: what is left is the end of what followed the first character. -/
theorem suffix_of_cutFirst {c : Char} {text rest : List Char} {form : Form}
    (h : cutFirst c text = .ok (form, rest)) : rest <:+ text := by
  unfold cutFirst at h
  split at h
  · exact suffix_of_cutMarkup h
  · cases h
    exact List.dropWhile_suffix _

/-! ## All pieces -/

/-- Cuts a text that starts at `offset` into pieces, up to the end or the first fault. -/
def cutAll (offset : Nat) (text : List Char) : List Piece × Option (Located Fault) :=
  match text with
  | [] => ([], none)
  | c :: tail =>
    match h : cutFirst c tail with
    | .error fault => ([], some ⟨offset + fault.offset, fault.value⟩)
    | .ok (form, rest) =>
      have := (suffix_of_cutFirst h).length_le
      let raw := (c :: tail).take (tail.length + 1 - rest.length)
      let (pieces, fault) := cutAll (offset + Text.byteSize raw) rest
      (⟨offset, raw, form⟩ :: pieces, fault)
termination_by text.length
decreasing_by
  simp only [List.length_cons]
  omega

end Piece

end XmlInspect.Markup
