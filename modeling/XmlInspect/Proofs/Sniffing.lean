import XmlInspect.Proofs.Transcoding
import XmlInspect.Proofs.WrittenTags

/-!
# What is taken for a declaration

Two searches look for an XML declaration. The one that cuts off a preamble wants a declaration that
has no markup before it, and knows it from an instruction whose name only starts alike. The one that
sniffs the charset takes the first `<?xml` among the first bytes, wherever it stands and whatever
follows. So there can be a *look-alike*: inside a comment or after other markup, or an instruction
such as `<?xml-stylesheet?>`. It does no harm unless it says something about an encoding.

This module says what exactly is sniffed, without the searches that do it, and in which texts
without a declaration a look-alike has a say.
-/

namespace XmlInspect

/-! ## First occurrences -/

namespace Text

/-- A word occurs in a text right after `front`, and nowhere before. -/
structure OccursFirst (word text front : List Char) : Prop where
  occurs : front ++ word <+: text
  first : ∀ other, other ++ word <+: text → front.length ≤ other.length

variable {word text head front rest other : List Char}

theorem exists_cutAt (h : other ++ word <+: text) :
    ∃ front rest, cutAt word text = some (front, rest) ∧ front.length ≤ other.length := by
  induction other generalizing text with
  | nil =>
    obtain ⟨rest, rfl⟩ := h
    have hstrip : stripStart? word (word ++ rest) = some rest := stripStart?_eq_some_iff.2 rfl
    refine ⟨[], rest, ?_, Nat.le_refl 0⟩
    rw [List.nil_append]
    generalize word ++ rest = text at hstrip
    cases text with
    | nil => rw [cutAt, hstrip, Option.map_some]
    | cons c text => rw [cutAt, hstrip]
  | cons c other ih =>
    obtain ⟨rest, rfl⟩ := h
    obtain ⟨front, after, hcut, hlength⟩ := ih (List.prefix_append (other ++ word) rest)
    rw [List.cons_append, List.cons_append, cutAt]
    split
    · exact ⟨[], _, rfl, Nat.zero_le _⟩
    · exact ⟨c :: front, after, consBefore_eq_some_iff.2 ⟨front, hcut, rfl⟩,
        Nat.succ_le_succ hlength⟩

theorem cutAt_eq_some_iff :
    cutAt word text = some (front, rest) ↔
      text = front ++ word ++ rest ∧ OccursFirst word text front := by
  constructor
  · intro h
    have htext := eq_append_of_cutAt h
    refine ⟨htext, ⟨rest, htext.symm⟩, fun other hother ↦ ?_⟩
    obtain ⟨front', rest', hcut, hlength⟩ := exists_cutAt hother
    rw [h] at hcut
    cases hcut
    exact hlength
  · rintro ⟨htext, hfirst⟩
    obtain ⟨front', rest', hcut, hlength⟩ := exists_cutAt hfirst.occurs
    have htext' := eq_append_of_cutAt hcut
    have hlength' := hfirst.first front' ⟨rest', htext'.symm⟩
    rw [List.append_assoc] at htext htext'
    obtain ⟨rfl, hrest⟩ :=
      List.append_inj (htext'.symm.trans htext) (Nat.le_antisymm hlength hlength')
    rw [hcut, List.append_cancel_left hrest]

theorem OccursFirst.of_prefix (h : OccursFirst word head front) (hhead : head <+: text) :
    OccursFirst word text front where
  occurs := h.occurs.trans hhead
  first other hother := by
    by_contra hlt
    have hshort : (other ++ word).length ≤ (front ++ word).length := by
      simp only [List.length_append]
      omega
    have hin := List.prefix_of_prefix_length_le hother (h.occurs.trans hhead) hshort
    exact hlt (h.first other (hin.trans h.occurs))

theorem OccursFirst.in_prefix (h : OccursFirst word text front) (hhead : head <+: text)
    (hin : front ++ word <+: head) : OccursFirst word head front where
  occurs := hin
  first other hother := h.first other (hother.trans hhead)

private theorem cutAt_append_replicate {c : Char} (hword : word ≠ []) (hc : c ∉ word)
    (text : List Char) (m : Nat) :
    cutAt word (text ++ List.replicate m c) =
      (cutAt word text).map fun (front, rest) ↦ (front, rest ++ List.replicate m c) := by
  cases hcut : cutAt word text with
  | some cut => exact cutAt_append hcut _
  | none =>
    rw [Option.map_none]
    by_contra hsome
    obtain ⟨⟨front, rest⟩, hfound⟩ := Option.ne_none_iff_exists'.1 hsome
    have hmissing : ¬ front ++ word <+: text := by
      intro hin
      obtain ⟨_, _, hsome, -⟩ := exists_cutAt hin
      rw [hcut] at hsome
      cases hsome
    rcases List.append_eq_append_iff.1 (eq_append_of_cutAt hfound) with
      ⟨tail, hfront, hjunk⟩ | ⟨tail, htext, -⟩
    · -- The word reaches beyond the text, so its last character is one of those added.
      obtain ⟨init, last, rfl⟩ := List.eq_nil_or_concat word |>.resolve_left hword
      rcases List.eq_nil_or_concat tail with rfl | ⟨tail, d, rfl⟩
      · exact hmissing ⟨[], by rw [hfront]; simp⟩
      · have hlast : last = d := by
          have heq := congrArg List.getLast? hfront
          simpa using heq
        have hd : d ∈ List.replicate m c := by
          rw [hjunk]
          simp
        exact hc (by rw [hlast, List.eq_of_mem_replicate hd]; simp)
    · exact hmissing ⟨tail, htext.symm⟩

end Text

/-! ## Labels -/

namespace Charset

/-- What may stand between the quotes as the name of an encoding. -/
def IsLabel (label : List Char) : Prop :=
  (∀ c ∈ label, isLabelChar c = true) ∧ ∃ c rest, label = c :: rest ∧ c.isAlpha = true

/-- A text starts with the assignment of a label. -/
def AssignsLabel (text label : List Char) : Prop :=
  ∃ blanks blanks' rest opening closing,
    text = "encoding".toList ++
      (blanks ++ '=' :: (blanks' ++ opening :: (label ++ closing :: rest))) ∧
    (∀ c ∈ blanks, Text.isBlank c = true) ∧ (∀ c ∈ blanks', Text.isBlank c = true) ∧
    isQuote opening = true ∧ isQuote closing = true ∧ IsLabel label

/-- A text holds the assignment of a label, and none before it. -/
def HoldsLabel (text label : List Char) : Prop :=
  ∃ front rest, text = front ++ rest ∧ AssignsLabel rest label ∧
    ∀ front' rest' label', text = front' ++ rest' → AssignsLabel rest' label' →
      front.length ≤ front'.length

private theorem isBlank_of_isQuote {c : Char} (h : isQuote c = true) : Text.isBlank c = false := by
  simp only [isQuote, Bool.or_eq_true, beq_iff_eq] at h
  rcases h with rfl | rfl <;> decide

private theorem isLabelChar_of_isQuote {c : Char} (h : isQuote c = true) :
    isLabelChar c = false := by
  simp only [isQuote, Bool.or_eq_true, beq_iff_eq] at h
  rcases h with rfl | rfl <;> decide

private theorem labelAt?_iff {text label : List Char} :
    labelAt? text = some label ↔ AssignsLabel text label := by
  constructor
  · intro h
    obtain ⟨afterName, hname, h⟩ := Option.bind_eq_some_iff.1 h
    obtain ⟨afterSign, hsign, h⟩ := Option.bind_eq_some_iff.1 h
    rw [Text.stripStart?_eq_some_iff] at hname hsign
    split at h
    · cases h
    rename_i opening afterOpening hopening
    dsimp only at h
    split at h
    · rename_i first more closing rest hlabel hclosing
      split at h
      · rename_i hquotes
        cases h
        simp only [Bool.and_eq_true] at hquotes
        refine ⟨afterName.takeWhile Text.isBlank, afterSign.takeWhile Text.isBlank, rest, opening,
          closing, ?_, fun _ hc ↦ List.mem_takeWhile_imp hc, fun _ hc ↦ List.mem_takeWhile_imp hc,
          hquotes.1.1, hquotes.2, fun _ hc ↦ List.mem_takeWhile_imp hc, first, more, hlabel,
          hquotes.1.2⟩
        rw [← hclosing, List.takeWhile_append_dropWhile, ← hopening,
          List.takeWhile_append_dropWhile, ← List.singleton_append, ← hsign,
          List.takeWhile_append_dropWhile, hname]
      · cases h
    · cases h
  · rintro ⟨blanks, blanks', rest, opening, closing, rfl, hblanks, hblanks', hopening, hclosing,
      hlabel, first, more, rfl, hfirst⟩
    set value := first :: more ++ closing :: rest with hvalue
    have hspan : value.takeWhile isLabelChar = first :: more ∧
        value.dropWhile isLabelChar = closing :: rest :=
      Text.span_eq hlabel (by simp [isLabelChar_of_isQuote hclosing])
    have hquote : (blanks' ++ opening :: value).dropWhile Text.isBlank = opening :: value :=
      (Text.span_eq hblanks' (by simp [isBlank_of_isQuote hopening])).2
    have hsign : (blanks ++ '=' :: (blanks' ++ opening :: value)).dropWhile Text.isBlank =
        '=' :: (blanks' ++ opening :: value) :=
      (Text.span_eq hblanks (by simp +decide)).2
    have hname : Text.stripStart? "encoding".toList
        ("encoding".toList ++ (blanks ++ '=' :: (blanks' ++ opening :: value))) = some _ :=
      Text.stripStart?_eq_some_iff.2 rfl
    simp only [labelAt?, hname, hsign, Text.stripStart?, if_true, Option.bind_eq_bind,
      Option.bind_some, hquote, hspan.1, hspan.2, hopening, hclosing, hfirst, Bool.and_self]

theorem labelIn?_iff {text label : List Char} :
    labelIn? text = some label ↔ HoldsLabel text label := by
  induction text with
  | nil =>
    refine iff_of_false (by simp [labelIn?]) ?_
    rintro ⟨front, rest, htext, ⟨_, _, _, _, _, rfl, -⟩, -⟩
    simp at htext
  | cons c text ih =>
    rw [labelIn?]
    cases hat : labelAt? (c :: text) with
    | some found =>
      have hfound := labelAt?_iff.1 hat
      rw [Option.some_or, Option.some.injEq]
      constructor
      · rintro rfl
        exact ⟨[], c :: text, rfl, hfound, fun _ _ _ _ _ ↦ Nat.zero_le _⟩
      · rintro ⟨front, rest, htext, hlabel, hfirst⟩
        obtain rfl : front = [] :=
          List.length_eq_zero_iff.1 (Nat.le_zero.1 (hfirst [] _ _ rfl hfound))
        rw [htext, List.nil_append, labelAt?_iff.2 hlabel] at hat
        exact (Option.some.inj hat).symm
    | none =>
      have hnot : ∀ label, ¬ AssignsLabel (c :: text) label := by
        intro label hlabel
        rw [labelAt?_iff.2 hlabel] at hat
        cases hat
      rw [Option.none_or, ih]
      constructor
      · rintro ⟨front, rest, rfl, hlabel, hfirst⟩
        refine ⟨c :: front, rest, rfl, hlabel, fun front' rest' label' htext hlabel' ↦ ?_⟩
        cases front' with
        | nil =>
          rw [List.nil_append] at htext
          exact absurd (htext ▸ hlabel') (hnot label')
        | cons d front' =>
          obtain ⟨-, htext⟩ := List.cons.inj htext
          exact Nat.succ_le_succ (hfirst front' rest' label' htext hlabel')
      · rintro ⟨front, rest, htext, hlabel, hfirst⟩
        cases front with
        | nil =>
          rw [List.nil_append] at htext
          exact absurd (htext ▸ hlabel) (hnot label)
        | cons d front =>
          obtain ⟨rfl, rfl⟩ := List.cons.inj htext
          refine ⟨front, rest, rfl, hlabel, fun front' rest' label' htext hlabel' ↦ ?_⟩
          exact Nat.le_of_succ_le_succ
            (hfirst (c :: front') rest' label' (by rw [htext]; rfl) hlabel')

/-! ## The label of a text -/

/-- The first `<?xml` of a text stands after `front`, and `inside` is what follows up to the next
`?>`. Both are found among the first bytes, and a label is assigned there. -/
structure Names (text front inside label : List Char) : Prop where
  opens : Text.OccursFirst "<?xml".toList text front
  closes : front ++ "<?xml".toList ++ inside ++ "?>".toList <+: text
  first : ∀ other, front ++ "<?xml".toList ++ other ++ "?>".toList <+: text →
    inside.length ≤ other.length
  early : Text.byteSize (front ++ "<?xml".toList ++ inside ++ "?>".toList) ≤ sniffedBytes
  label : HoldsLabel inside label

private theorem declaredLabel?_append_replicate (text : List Char) (m : Nat) :
    declaredLabel? (text ++ List.replicate m '\uFFFD') = declaredLabel? text := by
  unfold declaredLabel?
  rw [Text.cutAt_append_replicate (by decide) (by decide)]
  cases Text.cutAt "<?xml".toList text with
  | none => rfl
  | some cut =>
    simp only [Option.map_some, Option.bind_eq_bind, Option.bind_some]
    rw [Text.cutAt_append_replicate (by decide) (by decide)]
    cases Text.cutAt "?>".toList cut.2 with
    | none => rfl
    | some cut => rfl

theorem declaredLabel?_iff {text label : List Char} :
    declaredLabel? (Text.takeBytes sniffedBytes text) = some label ↔
      ∃ front inside, Names text front inside label := by
  have hhead : Text.takeBytes sniffedBytes text <+: text :=
    (Text.prefix_takeBytes_iff.1 (List.prefix_refl _)).1
  constructor
  · intro h
    obtain ⟨⟨front, rest⟩, hopens, h⟩ := Option.bind_eq_some_iff.1 h
    obtain ⟨⟨inside, rest'⟩, hcloses, hlabel⟩ := Option.bind_eq_some_iff.1 h
    obtain ⟨htext, hopens⟩ := Text.cutAt_eq_some_iff.1 hopens
    obtain ⟨hrest, hcloses⟩ := Text.cutAt_eq_some_iff.1 hcloses
    have hwhole : front ++ "<?xml".toList ++ inside ++ "?>".toList <+:
        Text.takeBytes sniffedBytes text := by
      rw [htext, List.append_assoc _ inside]
      exact (List.prefix_append_right_inj _).2 hcloses.occurs
    obtain ⟨hclosed, hearly⟩ := Text.prefix_takeBytes_iff.1 hwhole
    refine ⟨front, inside, hopens.of_prefix hhead, hclosed, fun other hother ↦ ?_, hearly,
      labelIn?_iff.1 hlabel⟩
    by_contra hlt
    have hshort : (front ++ "<?xml".toList ++ other ++ "?>".toList).length ≤
        (front ++ "<?xml".toList ++ inside ++ "?>".toList).length := by
      simp only [List.length_append]
      omega
    have hin := (List.prefix_of_prefix_length_le hother hclosed hshort).trans hwhole
    rw [htext, List.append_assoc _ other, List.prefix_append_right_inj] at hin
    exact hlt (hcloses.first other hin)
  · rintro ⟨front, inside, hnames⟩
    have hwhole : front ++ "<?xml".toList ++ inside ++ "?>".toList <+:
        Text.takeBytes sniffedBytes text :=
      Text.prefix_takeBytes_iff.2 ⟨hnames.closes, hnames.early⟩
    obtain ⟨tail, htail⟩ := hwhole
    set head := Text.takeBytes sniffedBytes text
    have hsplit : head = front ++ "<?xml".toList ++ (inside ++ "?>".toList ++ tail) := by
      rw [← htail]
      simp
    have hopens := hnames.opens.in_prefix hhead ⟨_, hsplit.symm⟩
    have hcloses : Text.OccursFirst "?>".toList (inside ++ "?>".toList ++ tail) inside := by
      refine ⟨List.prefix_append _ _, fun other hother ↦ hnames.first other ?_⟩
      refine List.IsPrefix.trans ?_ hhead
      rw [hsplit, List.append_assoc _ other, List.prefix_append_right_inj]
      exact hother
    rw [declaredLabel?, Text.cutAt_eq_some_iff.2 ⟨hsplit, hopens⟩]
    simp only [Option.bind_eq_bind, Option.bind_some, Text.cutAt_eq_some_iff.2 ⟨rfl, hcloses⟩]
    exact labelIn?_iff.2 hnames.label

/-! ## The charset of a text -/

/-- How bytes start that are known to be Unicode before anything is read: the marks of the three
forms, and `<?` in UTF-16. -/
def signatures : List (List UInt8) :=
  [[0xEF, 0xBB, 0xBF], [0xFF, 0xFE], [0xFE, 0xFF], [0x00, 0x3C, 0x00, 0x3F],
    [0x3C, 0x00, 0x3F, 0x00]]

private theorem sniff_of_unsigned {bytes : List UInt8}
    (h : ∀ signature ∈ signatures, ¬ signature <+: bytes) :
    sniff bytes =
      ((declaredLabel? (Utf8.decodeLossy (bytes.take sniffedBytes))).map ofDeclared).getD utf8 := by
  unfold sniff
  split
  · exact absurd ⟨_, rfl⟩ (h [0xEF, 0xBB, 0xBF] (by simp [signatures]))
  · exact absurd ⟨_, rfl⟩ (h [0xFF, 0xFE] (by simp [signatures]))
  · exact absurd ⟨_, rfl⟩ (h [0xFE, 0xFF] (by simp [signatures]))
  · exact absurd ⟨_, rfl⟩ (h [0x00, 0x3C, 0x00, 0x3F] (by simp [signatures]))
  · exact absurd ⟨_, rfl⟩ (h [0x3C, 0x00, 0x3F, 0x00] (by simp [signatures]))
  split
  · rename_i label hlabel
    rw [hlabel, Option.map_some, Option.getD_some]
  · rename_i hlabel
    rw [hlabel, Option.map_none, Option.getD_none]

/-- The charset of a text in UTF-8 is the one that it names, if it names one. -/
theorem sniff_encode {text : List Char}
    (h : ∀ signature ∈ signatures, ¬ signature <+: Utf8.encode text) :
    sniff (Utf8.encode text) =
      ((declaredLabel? (Text.takeBytes sniffedBytes text)).map ofDeclared).getD utf8 := by
  obtain ⟨m, hhead⟩ := Utf8.decodeLossy_take_encode sniffedBytes text
  rw [sniff_of_unsigned h, hhead, declaredLabel?_append_replicate]

/-- A label leads away from UTF-8 if it belongs to another charset, and not to UTF-16. -/
theorem ofDeclared_eq_utf8_iff {label : List Char} :
    ofDeclared label = utf8 ↔ ∀ charset, ofLabel (String.ofList label) = .ok charset →
      charset = utf8 ∨ charset.isUtf16 = true := by
  unfold ofDeclared
  cases ofLabel (String.ofList label) with
  | error fault => simp
  | ok charset =>
    by_cases hwide : charset.isUtf16 = true
    · simp [hwide]
    · simp [hwide]

end Charset

/-! ## Texts without a declaration -/

namespace Source

/-- Whether a text has an XML declaration, with no markup before it. -/
def Declares (text : List Char) : Prop :=
  ∃ front rest, text = front ++ rest ∧ '<' ∉ front ∧ startsDeclaration rest = true

private theorem declares_iff {text : List Char} :
    Declares text ↔ startsDeclaration (text.dropWhile (· != '<')) = true := by
  constructor
  · rintro ⟨front, rest, rfl, hmarkup, hstarts⟩
    have hpass : ∀ c ∈ front, (c != '<') = true := by
      intro c hc
      simpa using ne_of_mem_of_not_mem hc hmarkup
    obtain ⟨rest, rfl⟩ := List.head?_eq_some_iff.1 (head?_of_startsDeclaration hstarts)
    rw [List.dropWhile_append_of_pos hpass]
    simpa using hstarts
  · intro h
    refine ⟨text.takeWhile (· != '<'), _, List.takeWhile_append_dropWhile.symm, ?_, h⟩
    intro hmem
    simpa using List.mem_takeWhile_imp hmem

instance (text : List Char) : Decidable (Declares text) := decidable_of_iff _ declares_iff.symm

/-- Something that is no declaration looks like one, and names an encoding. -/
def Misleads (text label : List Char) : Prop :=
  ∃ front inside, Charset.Names text front inside label ∧
    ('<' ∈ front ∨ startsDeclaration ("<?xml".toList ++ inside ++ "?>".toList) = false)

private theorem startsDeclaration_append {text : List Char} (h : startsDeclaration text = true)
    (more : List Char) : startsDeclaration (text ++ more) = true := by
  obtain ⟨c, rest, rfl, hc⟩ := startsDeclaration_iff.1 h
  exact startsDeclaration_iff.2 ⟨c, rest ++ more, by simp, hc⟩

/-- Without a declaration, only something that looks like one names an encoding. -/
theorem misleads_of_names {text front inside label : List Char} (hnone : ¬ Declares text)
    (h : Charset.Names text front inside label) : Misleads text label := by
  refine ⟨front, inside, h, ?_⟩
  by_contra hboth
  rw [not_or, Bool.not_eq_false] at hboth
  obtain ⟨tail, htail⟩ := h.closes
  refine hnone ⟨front, _, ?_, hboth.1, startsDeclaration_append hboth.2 tail⟩
  rw [← htail]
  simp

/-- A text without a declaration is taken for UTF-8 unless something misleads, and then it is read
as it was written. -/
theorem sniff_eq_utf8_iff [EastAsianDecoder] {text : List Char}
    (hunsigned : ∀ signature ∈ Charset.signatures, ¬ signature <+: Utf8.encode text)
    (hnone : ¬ Declares text) :
    (Charset.sniff (Utf8.encode text) = .utf8 ↔
      ∀ label charset, Misleads text label → Charset.ofLabel (String.ofList label) = .ok charset →
        charset = .utf8 ∨ charset.isUtf16 = true) ∧
    (Charset.sniff (Utf8.encode text) = .utf8 → ∀ uri, ∃ source,
      ofBytes uri (Utf8.encode text) none = .ok source ∧ source.content = text) := by
  constructor
  · rw [Charset.sniff_encode hunsigned]
    cases hlabel : Charset.declaredLabel? (Text.takeBytes Charset.sniffedBytes text) with
    | none =>
      refine iff_of_true rfl fun label charset hmisleads ↦ ?_
      obtain ⟨front, inside, hnames, -⟩ := hmisleads
      rw [Charset.declaredLabel?_iff.2 ⟨front, inside, hnames⟩] at hlabel
      cases hlabel
    | some found =>
      rw [Option.map_some, Option.getD_some, Charset.ofDeclared_eq_utf8_iff]
      constructor
      · rintro h label charset ⟨front, inside, hnames, -⟩
        rw [Charset.declaredLabel?_iff.2 ⟨front, inside, hnames⟩] at hlabel
        cases hlabel
        exact h charset
      · -- there is no declaration, so what names the label only looks like one
        intro h charset
        obtain ⟨front, inside, hnames⟩ := Charset.declaredLabel?_iff.1 hlabel
        exact h found charset (misleads_of_names hnone hnames)
  · intro hsniff uri
    refine ⟨_, ofBytes_of_decode uri hsniff (UnicodeForm.decode_encode .utf8 text), ?_⟩
    have hmark : text.head? ≠ some Text.byteOrderMark := by
      intro hhead
      obtain ⟨rest, rfl⟩ := List.head?_eq_some_iff.1 hhead
      exact hunsigned [0xEF, 0xBB, 0xBF] (by simp [Charset.signatures]) ⟨_, rfl⟩
    rw [content_ofChars, if_neg (by simpa using hmark)]

/-- An instruction that is no declaration names an encoding, but one that the text cannot have. -/
theorem sniff_eq_utf8_of_stylesheet :
    let text := "<?xml-stylesheet encoding = 'UTF-16'?><a>é</a>".toList
    (∀ signature ∈ Charset.signatures, ¬ signature <+: Utf8.encode text) ∧ ¬ Declares text ∧
      Misleads text "UTF-16".toList ∧
      ∃ source, ofBytes "a.xml" (Utf8.encode text) none = .ok source ∧ source.content = text := by
  intro text
  have hunsigned : ∀ signature ∈ Charset.signatures, ¬ signature <+: Utf8.encode text := by
    decide +kernel
  have hnone : ¬ Declares text := by decide +kernel
  have hlabel : Charset.declaredLabel? (Text.takeBytes Charset.sniffedBytes text) =
      some "UTF-16".toList := by decide +kernel
  have hwide : (Charset.ofLabel (String.ofList "UTF-16".toList)).toOption.any (·.isUtf16) =
      true := by decide +kernel
  obtain ⟨front, inside, hnames⟩ := Charset.declaredLabel?_iff.1 hlabel
  obtain ⟨hiff, hcontent⟩ := sniff_eq_utf8_iff hunsigned hnone
  refine ⟨hunsigned, hnone, misleads_of_names hnone hnames, hcontent (hiff.2 ?_) "a.xml"⟩
  rintro label charset ⟨front, inside, hnames, -⟩ hcharset
  have heq := hlabel.symm.trans (Charset.declaredLabel?_iff.2 ⟨front, inside, hnames⟩)
  rw [← Option.some.inj heq] at hcharset
  rw [hcharset] at hwide
  exact .inr hwide

/-- A comment quotes a declaration, and the text is read by the charset that is named there. -/
theorem sniff_ne_utf8_of_comment :
    let text := "<a><!-- <?xml encoding='x-user-defined'?> -->é</a>".toList
    (∀ signature ∈ Charset.signatures, ¬ signature <+: Utf8.encode text) ∧ ¬ Declares text ∧
      Charset.sniff (Utf8.encode text) ≠ .utf8 ∧
      ∃ source, ofBytes "a.xml" (Utf8.encode text) none = .ok source ∧ source.content =
        "<a><!-- <?xml encoding='x-user-defined'?> -->\uF7C3\uF7A9</a>".toList := by
  intro text
  have hunsigned : ∀ signature ∈ Charset.signatures, ¬ signature <+: Utf8.encode text := by
    decide +kernel
  have hnone : ¬ Declares text := by decide +kernel
  have hlabel : Charset.declaredLabel? (Text.takeBytes Charset.sniffedBytes text) =
      some "x-user-defined".toList := by decide +kernel
  have hnamed : Charset.ofDeclared "x-user-defined".toList = ⟨"x-user-defined", .userDefined⟩ := by
    rfl
  have hsniff : Charset.sniff (Utf8.encode text) = ⟨"x-user-defined", .userDefined⟩ := by
    rw [Charset.sniff_encode hunsigned, hlabel, Option.map_some, Option.getD_some, hnamed]
  -- byte by byte, so that the two bytes of the last letter become two private characters
  have hdecode : Charset.decode ⟨"x-user-defined", .userDefined⟩ (Utf8.encode text) =
      .ok "<a><!-- <?xml encoding='x-user-defined'?> -->\uF7C3\uF7A9</a>".toList := by rfl
  refine ⟨hunsigned, hnone, ?_, _, ofBytes_of_decode "a.xml" hsniff hdecode, ?_⟩
  · rw [hsniff]
    exact fun heq ↦ absurd (congrArg Charset.name heq) (by decide)
  · rw [content_ofChars, if_neg (by decide +kernel)]

end Source

end XmlInspect
