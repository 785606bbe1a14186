import Mathlib.Data.List.DropRight
import XmlInspect.Proofs.Located

/-!
# Text before the declaration

What stands before an XML declaration is no XML and is not parsed. It does move the rest of the file
though: down by the number of its line terminators, and on the line on which the declaration starts
also to the right, by what it holds after the last of them. This module says that it does nothing
else. The outcome of parsing a file with a preamble is the outcome without it, moved.

Both numbers are said here without the recursion that counts them in `Shift.past`: a terminator is
counted at the place where it ends, so that the pair of carriage return and line feed counts once.
-/

namespace XmlInspect

/-! ## Line terminators -/

namespace Text

/-- Whether a line terminator ends with the first character of a text. -/
def endsLine : List Char → Bool
  | [] => false
  | '\r' :: '\n' :: _ => false
  | c :: _ => isLineEnd c

/-- The number of line terminators of a text. -/
def terminators (text : List Char) : Nat := text.tails.countP endsLine

/-- What follows the last line terminator of a text. -/
def lastLine (text : List Char) : List Char := text.rtakeWhile (!isLineEnd ·)

theorem terminators_cons (c : Char) (text : List Char) :
    terminators (c :: text) = terminators text + if endsLine (c :: text) then 1 else 0 := by
  rw [terminators, List.tails, List.countP_cons, ← terminators]

theorem lastLine_of_not_any {text : List Char} (h : text.any isLineEnd = false) :
    lastLine text = text := by
  rw [lastLine, List.rtakeWhile_eq_self_iff]
  intro c hc
  simpa using List.any_eq_false.1 h c hc

theorem lastLine_cons_of_any {text : List Char} (c : Char) (h : text.any isLineEnd = true) :
    lastLine (c :: text) = lastLine text := by
  obtain ⟨d, hd, hend⟩ := List.any_eq_true.1 h
  rw [lastLine, List.rtakeWhile, List.reverse_cons, List.takeWhile_append, if_neg,
    ← List.rtakeWhile, ← lastLine]
  intro hlen
  -- A run of the whole length would take in the terminator.
  have hall := List.takeWhile_eq_self_iff.1 ((List.takeWhile_prefix _).eq_of_length hlen)
  simpa [hend] using hall d (List.mem_reverse.2 hd)

private theorem lastLine_cons_of_lineEnd {c : Char} (text : List Char) (hc : isLineEnd c = true) :
    lastLine (c :: text) = lastLine text := by
  cases h : text.any isLineEnd with
  | true => exact lastLine_cons_of_any c h
  | false =>
    have hall : ∀ d ∈ text.reverse, (!isLineEnd d) = true := by
      intro d hd
      simpa using List.any_eq_false.1 h d (List.mem_reverse.1 hd)
    rw [lastLine_of_not_any h, lastLine, List.rtakeWhile, List.reverse_cons,
      List.takeWhile_append_of_pos hall]
    simp [hc]

end Text

namespace Shift

open Text in
private theorem past_eq (shift : Shift) (text : List Char) :
    shift.past text =
      ⟨shift.lines + terminators text,
        (if text.any isLineEnd then 0 else shift.characters) + (lastLine text).length⟩ := by
  fun_induction past shift text with
  | case1 shift => rfl
  | case2 shift text ih =>
    rw [ih, terminators_cons, terminators_cons, lastLine_cons_of_lineEnd _ (by decide),
      lastLine_cons_of_lineEnd _ (by decide)]
    simp [endsLine, isLineEnd]
    omega
  | case3 shift c text hpair hend ih =>
    have hends : endsLine (c :: text) = true := by
      rw [endsLine.eq_3 _ _ hpair, hend]
    rw [ih, terminators_cons, lastLine_cons_of_lineEnd _ hend, hends, List.any_cons, hend]
    simp
    omega
  | case4 shift c text hpair hend ih =>
    have hend : isLineEnd c = false := by simpa using hend
    have hends : endsLine (c :: text) = false := by
      rw [endsLine.eq_3 _ _ hpair, hend]
    rw [ih, terminators_cons, hends, List.any_cons, hend]
    cases h : text.any isLineEnd with
    | true =>
      rw [lastLine_cons_of_any c h]
      simp
    | false =>
      rw [lastLine_of_not_any h, lastLine_of_not_any (by simp [hend, h])]
      simp
      omega

/-- A shift counts the terminators of a text and the characters after the last. -/
theorem of_eq (text : List Char) :
    Shift.of text = ⟨Text.terminators text, (Text.lastLine text).length⟩ := by
  rw [of, past_eq]
  simp [zero]

end Shift

/-! ## Moving -/

/-- Where a position lands when a text that covers this distance is put before its file. -/
def Position.moveBy (shift : Shift) (p : Position) : Position :=
  ⟨p.line + shift.lines, if p.line = 1 then p.column + shift.characters else p.column⟩

theorem Position.moveBy_lt_moveBy_iff {shift : Shift} {p q : Position} :
    p.moveBy shift < q.moveBy shift ↔ p < q := by
  simp only [lt_def, moveBy]
  split <;> split <;> omega

namespace TextRange

/-- Moves both ends of a range. -/
def moveBy (shift : Shift) (range : TextRange) : TextRange where
  start := range.start.moveBy shift
  stop := range.stop.moveBy shift
  line_pos := Nat.add_pos_left range.line_pos _
  start_lt_stop := Position.moveBy_lt_moveBy_iff.2 range.start_lt_stop

end TextRange

/-- Applies a function to the places that are known. -/
def Ranges.map {α β : Type} (f : α → β) (ranges : Ranges α) : Ranges β :=
  ⟨ranges.whole.map f, ranges.opening.map f, ranges.closing.map f, ranges.name.map f,
    ranges.value.map f⟩

/-- Moves the ranges of a pseudo-attribute. -/
def PrologAttribute.moveBy (shift : Shift) (attr : PrologAttribute) : PrologAttribute :=
  { attr with
    nameRange := attr.nameRange.moveBy shift
    valueRange := attr.valueRange.moveBy shift }

/-- Moves the ranges of an XML declaration. -/
def Prolog.moveBy (shift : Shift) (prolog : Prolog) : Prolog where
  range := prolog.range.moveBy shift
  opening := prolog.opening.moveBy shift
  closing := prolog.closing.moveBy shift
  attributes := prolog.attributes.map (·.moveBy shift)

/-- Moves all ranges of a document. -/
def Document.moveBy (shift : Shift) (document : Document) : Document where
  tree := document.tree
  nodeRanges := document.nodeRanges.map (·.map (·.moveBy shift))
  attrRanges := document.attrRanges.map (·.map (·.moveBy shift))
  prolog := document.prolog.map (·.moveBy shift)

/-- Moves the ends of a range that is none. -/
def InvalidRange.moveBy (shift : Shift) (fault : InvalidRange) : InvalidRange :=
  ⟨fault.start.moveBy shift, fault.stop.moveBy shift⟩

/-- Moves the place that an error is about, if it names one. -/
def Error.moveBy (shift : Shift) : Error → Error
  | .malformed line fault => .malformed (line + shift.lines) fault
  | .invalidRange fault => .invalidRange (fault.moveBy shift)
  | error => error

/-! ## Moving what is computed -/

/-- One computation gives what another gives, after a function on its faults and one on its
results. -/
def Mirrors {ε ε' α β : Type} (e : ε → ε') (g : α → β) (x : Except ε α) (y : Except ε' β) : Prop :=
  y = (x.map g).mapError e

namespace Mirrors

variable {ε ε' α α' β β' : Type} {e : ε → ε'} {g : α → α'} {h : β → β'}

theorem ok (a : α) : Mirrors e g (.ok a) (.ok (g a)) := rfl

theorem refl (x : Except ε α) : Mirrors id id x x := by
  cases x with
  | error fault => rfl
  | ok a => rfl

theorem bind {x : Except ε α} {y : Except ε' α'} {f : α → Except ε β} {f' : α' → Except ε' β'}
    (hx : Mirrors e g x y) (hf : ∀ a, Mirrors e h (f a) (f' (g a))) :
    Mirrors e h (x >>= f) (y >>= f') := by
  rw [hx]
  cases x with
  | error fault => rfl
  | ok a => exact hf a

theorem mapError {δ δ' : Type} {d : δ → δ'} {f : ε → δ} {f' : ε' → δ'} {x : Except ε α}
    {y : Except ε' α'} (hx : Mirrors e g x y) (hf : ∀ fault, f' (e fault) = d (f fault)) :
    Mirrors d g (x.mapError f) (y.mapError f') := by
  rw [hx]
  cases x with
  | error fault => exact congrArg Except.error (hf fault)
  | ok a => rfl

theorem list_mapM {f : α → Except ε β} {f' : α → Except ε' β'}
    (hf : ∀ a, Mirrors e h (f a) (f' a)) (l : List α) :
    Mirrors e (List.map h) (l.mapM f) (l.mapM f') := by
  induction l with
  | nil => exact ok []
  | cons a l ih =>
    rw [List.mapM_cons, List.mapM_cons]
    exact (hf a).bind fun b ↦ ih.bind fun l' ↦ ok (b :: l')

theorem array_mapM {f : α → Except ε β} {f' : α → Except ε' β'}
    (hf : ∀ a, Mirrors e h (f a) (f' a)) (xs : Array α) :
    Mirrors e (Array.map h) (xs.mapM f) (xs.mapM f') := by
  rw [Array.mapM_eq_mapM_toList, Array.mapM_eq_mapM_toList, list_mapM hf xs.toList]
  cases xs.toList.mapM f with
  | error fault => rfl
  | ok l => exact congrArg Except.ok (by simp)

theorem mapPlace {f : α → Except ε β} {f' : α → Except ε' β'}
    (hf : ∀ a, Mirrors e h (f a) (f' a)) (place : Option α) :
    Mirrors e (Option.map h) (Ranges.mapPlace f place) (Ranges.mapPlace f' place) := by
  cases place with
  | none => exact ok none
  | some a =>
    rw [Ranges.mapPlace, Ranges.mapPlace, hf a]
    cases f a with
    | error fault => rfl
    | ok b => rfl

theorem ranges_mapM {f : α → Except ε β} {f' : α → Except ε' β'}
    (hf : ∀ a, Mirrors e h (f a) (f' a)) (ranges : Ranges α) :
    Mirrors e (Ranges.map h) (ranges.mapM f) (ranges.mapM f') :=
  (mapPlace hf ranges.whole).bind fun _ ↦ (mapPlace hf ranges.opening).bind fun _ ↦
    (mapPlace hf ranges.closing).bind fun _ ↦ (mapPlace hf ranges.name).bind fun _ ↦
      (mapPlace hf ranges.value).bind fun _ ↦ ok _

end Mirrors

/-- Two sources have the same body, and one gives it the places of the other, moved. -/
structure Source.MovedBy (shift : Shift) (source source' : Source) : Prop where
  body_eq : source'.body = source.body
  toFile_eq (p : Position) : source'.toFile p = (source.toFile p).moveBy shift

theorem Locator.line_position_pos (text : List Char) (offset : Nat) :
    0 < ((Locator.of text).position offset).1.line := by
  rw [position, lineAt, of, Text.linesOf, List.countP_cons_of_pos (by simp)]
  exact Nat.succ_pos _

namespace Source.MovedBy

variable {shift : Shift} {source source' : Source} (hmoved : source.MovedBy shift source')
  (text : List Char)

include hmoved

theorem placeOf (locator : Locator) (offset : Nat) :
    source'.placeOf locator offset = (source.placeOf locator offset).moveBy shift :=
  hmoved.toFile_eq _

theorem rangeOf (span : Span) :
    Mirrors (·.moveBy shift) (·.moveBy shift) (source.rangeOf (.of text) span)
      (source'.rangeOf (.of text) span) := by
  have hline : 0 < (source.placeOf (.of text) span.start).line := by
    have hpos := Locator.line_position_pos text span.start
    rw [Source.placeOf, toFile]
    split
    · exact Nat.add_pos_left hpos _
    · exact Nat.add_pos_left hpos _
  rw [Source.rangeOf, Source.rangeOf, hmoved.placeOf, hmoved.placeOf, TextRange.between,
    TextRange.between]
  by_cases hlt : source.placeOf (.of text) span.start < source.placeOf (.of text) span.stop
  · rw [dif_pos ⟨hline, hlt⟩,
      dif_pos ⟨Nat.add_pos_left hline _, Position.moveBy_lt_moveBy_iff.2 hlt⟩]
    rfl
  · rw [dif_neg fun h ↦ hlt h.2, dif_neg fun h ↦ hlt (Position.moveBy_lt_moveBy_iff.1 h.2)]
    rfl

theorem locateAttribute (attr : AttributeLexeme) :
    Mirrors (·.moveBy shift) (·.moveBy shift) (source.locateAttribute (.of text) attr)
      (source'.locateAttribute (.of text) attr) :=
  (hmoved.rangeOf text _).bind fun _ ↦ (hmoved.rangeOf text _).bind fun _ ↦ .ok _

theorem locateProlog (prolog : PrologSpans) :
    Mirrors (·.moveBy shift) (·.moveBy shift) (source.locateProlog (.of text) prolog)
      (source'.locateProlog (.of text) prolog) :=
  (hmoved.rangeOf text _).bind fun _ ↦ (hmoved.rangeOf text _).bind fun _ ↦
    (hmoved.rangeOf text _).bind fun _ ↦
      (Mirrors.list_mapM (hmoved.locateAttribute text) _).bind fun _ ↦ .ok _

theorem locate (tree : Tree) (spans : TreeSpans) :
    Mirrors (·.moveBy shift) (·.moveBy shift) (Document.locate source tree spans)
      (Document.locate source' tree spans) := by
  rw [Document.locate, Document.locate, hmoved.body_eq]
  have hranges := Mirrors.ranges_mapM (hmoved.rangeOf source.body)
  exact (Mirrors.array_mapM hranges _).bind fun _ ↦ (Mirrors.array_mapM hranges _).bind fun _ ↦
    (Mirrors.mapPlace (hmoved.locateProlog source.body) _).bind fun _ ↦ .ok _

theorem parse (mode : NamespaceMode) :
    Mirrors (·.moveBy shift) (·.moveBy shift) (Document.parse source mode)
      (Document.parse source' mode) := by
  rw [Document.parse, Document.parse, hmoved.body_eq]
  have htree : Mirrors (·.moveBy shift) id
      ((Tree.build mode source.body).mapError (Document.malformed source))
      ((Tree.build mode source.body).mapError (Document.malformed source')) := by
    refine (Mirrors.refl _).mapError fun fault ↦ ?_
    rw [id, Document.malformed, Document.malformed, hmoved.body_eq, hmoved.placeOf]
    rfl
  refine htree.bind fun tree ↦ ?_
  have hspans : Mirrors (Error.moveBy shift) id
      ((Document.bind tree source.body).mapError Error.internal)
      ((Document.bind tree source.body).mapError Error.internal) :=
    (Mirrors.refl _).mapError fun _ ↦ rfl
  exact hspans.bind fun spans ↦ (hmoved.locate tree spans).mapError fun _ ↦ rfl

end Source.MovedBy

/-! ## Preambles -/

namespace Source

variable {preamble text : List Char}

theorem splitPreamble_of_startsDeclaration (hmarkup : '<' ∉ preamble)
    (htext : startsDeclaration text = true) :
    splitPreamble (preamble ++ text) = (preamble, text) := by
  have hpass : ∀ c ∈ preamble, (c != '<') = true := by
    intro c hc
    simpa using ne_of_mem_of_not_mem hc hmarkup
  obtain ⟨rest, rfl⟩ : ∃ rest, text = '<' :: rest := by
    have hhead := head?_of_startsDeclaration htext
    exact ⟨text.tail, (List.cons_head?_tail hhead).symm⟩
  rw [splitPreamble, List.dropWhile_append_of_pos hpass, List.takeWhile_append_of_pos hpass]
  simp [htext]

private theorem ofChars_preamble_append (uri : String) (charset : Charset)
    (hmarkup : '<' ∉ preamble)
    (hmark : preamble.head? ≠ some Text.byteOrderMark) (htext : startsDeclaration text = true) :
    ofChars uri charset (preamble ++ text) = ⟨uri, charset, false, preamble, text⟩ := by
  have hhead : (preamble ++ text).head? ≠ some Text.byteOrderMark := by
    cases preamble with
    | nil =>
      rw [List.nil_append, head?_of_startsDeclaration htext]
      decide
    | cons c preamble => exact hmark
  rw [ofChars, beq_eq_false_iff_ne.2 hhead]
  simp only [Bool.false_eq_true, if_false, splitPreamble_of_startsDeclaration hmarkup htext]

private theorem movedBy_preamble_append (uri : String) (charset : Charset)
    (hmarkup : '<' ∉ preamble)
    (hmark : preamble.head? ≠ some Text.byteOrderMark) (htext : startsDeclaration text = true) :
    (ofChars uri charset text).MovedBy (Shift.of preamble)
      (ofChars uri charset (preamble ++ text)) := by
  have hplain : ofChars uri charset text = ⟨uri, charset, false, [], text⟩ :=
    ofChars_preamble_append uri charset List.not_mem_nil (by simp) htext
  rw [ofChars_preamble_append uri charset hmarkup hmark htext, hplain]
  refine ⟨rfl, fun p ↦ ?_⟩
  by_cases hp : p.line = 1
  · simp [toFile, shift, firstColumn, Position.moveBy, Shift.of, Shift.past, Shift.zero, hp]
  · simp [toFile, shift, Position.moveBy, Shift.of, Shift.past, Shift.zero, hp]

end Source

namespace Document

/-- A preamble moves the outcome of parsing, by as many lines as it has terminators and, on the
first line, by as many columns as it has characters after the last of them. -/
theorem parse_preamble_append {preamble text : List Char} (uri : String) (charset : Charset)
    (mode : NamespaceMode) (hmarkup : '<' ∉ preamble)
    (hmark : preamble.head? ≠ some Text.byteOrderMark)
    (htext : Source.startsDeclaration text = true) :
    let shift : Shift := ⟨Text.terminators preamble, (Text.lastLine preamble).length⟩
    parse (.ofChars uri charset (preamble ++ text)) mode =
      ((parse (.ofChars uri charset text) mode).map (·.moveBy shift)).mapError
        (·.moveBy shift) := by
  intro shift
  have hshift : Shift.of preamble = shift := Shift.of_eq preamble
  rw [← hshift]
  exact (Source.movedBy_preamble_append uri charset hmarkup hmark htext).parse mode

theorem parse_preamble_append_pair :
    let preamble := "x\r\n\n\ryz".toList
    let text := "<?xml version='1.0'?>\n<a/>".toList
    let broken := "<?xml version='1.0'?>\n<a>".toList
    (∃ doc, parse (.ofChars "" .utf8 text) .aware = .ok doc ∧
      parse (.ofChars "" .utf8 (preamble ++ text)) .aware = .ok (doc.moveBy ⟨3, 2⟩)) ∧
    ∃ fault, parse (.ofChars "" .utf8 broken) .aware = .error (.malformed 2 fault) ∧
      parse (.ofChars "" .utf8 (preamble ++ broken)) .aware = .error (.malformed 5 fault) := by
  intro preamble text broken
  have hmarkup : '<' ∉ preamble := by decide
  have hmark : preamble.head? ≠ some Text.byteOrderMark := by decide
  constructor
  · have hrun : (parse (.ofChars "" .utf8 text) .aware).toOption.any (fun _ ↦ true) = true := by
      decide +kernel
    obtain ⟨doc, hparse, -⟩ := exists_of_any hrun
    refine ⟨doc, hparse, ?_⟩
    rw [parse_preamble_append "" .utf8 .aware hmarkup hmark (by decide), hparse]
    rfl
  · have hrun : (match parse (.ofChars "" .utf8 broken) .aware with
        | .error (.malformed line _) => line == 2
        | _ => false) = true := by
      decide +kernel
    split at hrun
    · rename_i line fault hparse
      obtain rfl := beq_iff_eq.1 hrun
      refine ⟨fault, hparse, ?_⟩
      rw [parse_preamble_append "" .utf8 .aware hmarkup hmark (by decide), hparse]
      rfl
    · cases hrun

end Document

end XmlInspect
