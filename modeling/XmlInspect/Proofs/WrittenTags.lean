import XmlInspect.Proofs.Acceptance
import XmlInspect.Proofs.Scopes
import XmlInspect.Report.Element

/-!
# How written tags are read

Writing and reading go by different rules. Writing knows three kinds of elements and escapes five
characters, wherever they stand. Reading looks for the end of a tag outside quotes, for the end of a
text at the next tag, and replaces references only then. That reading gives back what was written is
shown here for one tag and one text at a time: a tag whose names are words and whose values are
escaped is cut where it was closed, its attributes are the written ones, and a text that is escaped
holds no markup and stands for itself.
-/

namespace XmlInspect

open Markup

namespace Report

/-! ## Escaping -/

/-- The characters that are markup in a text or in a value. -/
def isMarkup (c : Char) : Bool := c == '<' || c == '>' || c == '\'' || c == '"'

/-- A character is written as a reference to a predefined entity, or as it is if it is no markup and
starts no reference. -/
theorem escapeChar_cases (c : Char) :
    (∃ name, escapeChar c = '&' :: (name ++ [';']) ∧ (∀ d ∈ name, d.isAlpha = true) ∧
      Entity.predefined? name = some [c]) ∨
    escapeChar c = [c] ∧ isMarkup c = false ∧ c ≠ '&' := by
  unfold escapeChar
  split
  · exact Or.inl ⟨"lt".toList, rfl, List.all_eq_true.1 rfl, rfl⟩
  · exact Or.inl ⟨"gt".toList, rfl, List.all_eq_true.1 rfl, rfl⟩
  · exact Or.inl ⟨"amp".toList, rfl, List.all_eq_true.1 rfl, rfl⟩
  · exact Or.inl ⟨"apos".toList, rfl, List.all_eq_true.1 rfl, rfl⟩
  · exact Or.inl ⟨"quot".toList, rfl, List.all_eq_true.1 rfl, rfl⟩
  · rename_i hlt hgt hamp hapos hquot
    refine Or.inr ⟨rfl, ?_, hamp⟩
    simp only [isMarkup, Bool.or_eq_false_iff, beq_eq_false_iff_ne]
    exact ⟨⟨⟨hlt, hgt⟩, hapos⟩, hquot⟩

theorem ne_of_isAlpha {c d : Char} (hc : c.isAlpha = true) (hd : d.isAlpha = false) : c ≠ d := by
  rintro rfl
  rw [hc] at hd
  cases hd

private theorem isMarkup_eq_false_of_mem_escape {c : Char} {text : String} (hc : c ∈ escape text) :
    isMarkup c = false := by
  obtain ⟨d, -, hc⟩ := List.mem_flatMap.1 hc
  rcases escapeChar_cases d with ⟨name, heq, halpha, -⟩ | ⟨heq, hplain, -⟩
  · rw [heq, List.mem_cons, List.mem_append, List.mem_singleton] at hc
    rcases hc with rfl | hc | rfl
    · rfl
    · have hne : ∀ d, d.isAlpha = false → c ≠ d := fun _ ↦ ne_of_isAlpha (halpha c hc)
      simp [isMarkup, hne '<' (by decide), hne '>' (by decide), hne '\'' (by decide),
        hne '"' (by decide)]
    · rfl
  · rw [heq, List.mem_singleton] at hc
    rw [hc]
    exact hplain

theorem notMem_escape {c : Char} (hc : isMarkup c = true) (text : String) : c ∉ escape text := by
  intro hmem
  rw [isMarkup_eq_false_of_mem_escape hmem] at hc
  cases hc

/-- Blanks are written as they are. -/
theorem escape_blanks {blanks : List Char} (h : ∀ c ∈ blanks, Text.isXmlBlank c = true) :
    escape (String.ofList blanks) = blanks := by
  have hsingle : ∀ c ∈ blanks, escapeChar c = [c] := by
    intro c hc
    rcases Text.eq_of_isXmlBlank (h c hc) with rfl | rfl | rfl | rfl <;> rfl
  rw [escape, String.toList_ofList, List.flatMap_congr hsingle, List.flatMap_singleton']

/-- A reference is replaced by what it stands for. -/
theorem unescapeFrom_reference {entity? : List Char → Option (List Char)} {size offset : Nat}
    {name text rest out : List Char} (hname : ∀ c ∈ name, c ≠ '&' ∧ c ≠ ';')
    (hexpand : expand entity? (offset + 1) name = .ok text)
    (hrest : ∀ offset, unescapeFrom entity? size offset rest = .ok out) :
    unescapeFrom entity? size offset ('&' :: (name ++ ';' :: rest)) = .ok (text ++ out) := by
  have htake : (name ++ ';' :: rest).takeWhile (fun c ↦ c != '&' && c != ';') = name := by
    rw [List.takeWhile_append_of_pos fun c hc ↦ by simp [hname c hc]]
    simp
  rw [unescapeFrom, if_pos rfl]
  dsimp only
  split
  · rename_i after hafter
    rw [htake, List.drop_left] at hafter
    cases hafter
    rw [htake, hexpand]
    exact bind_eq_ok_iff.2 ⟨text, rfl, bind_eq_ok_iff.2 ⟨out, hrest _, rfl⟩⟩
  · rename_i hnone
    refine absurd ?_ (hnone rest)
    rw [htake, List.drop_left]

private theorem expand_predefined {entities : List Entity} {offset : Nat} {name text : List Char}
    (hname : ∀ d ∈ name, d.isAlpha = true) (h : Entity.predefined? name = some text) :
    expand (Entity.lookup entities) offset name = .ok text := by
  have hlookup : Entity.lookup entities name = some text := by
    rw [Entity.lookup, h]
    rfl
  unfold expand
  split
  · exact absurd (hname '#' List.mem_cons_self) (by decide)
  · rw [hlookup]

/-- Replacing references undoes escaping. -/
theorem unescape_escape (entities : List Entity) (text : String) :
    unescape (Entity.lookup entities) (escape text) = .ok text.toList := by
  suffices h : ∀ chars size offset,
      unescapeFrom (Entity.lookup entities) size offset (chars.flatMap escapeChar) = .ok chars from
    h text.toList _ 0
  intro chars size
  induction chars with
  | nil =>
    intro offset
    rw [List.flatMap_nil, unescapeFrom]
  | cons c chars ih =>
    intro offset
    rw [List.flatMap_cons]
    rcases escapeChar_cases c with ⟨name, heq, halpha, hname⟩ | ⟨heq, -, hamp⟩
    · rw [heq, List.cons_append, List.append_assoc]
      refine unescapeFrom_reference (fun d hd ↦ ?_) (expand_predefined halpha hname) ih
      exact ⟨ne_of_isAlpha (halpha d hd) rfl, ne_of_isAlpha (halpha d hd) rfl⟩
    · rw [heq, List.singleton_append, unescapeFrom, if_neg hamp, ih]
      rfl

/-! ## Words -/

/-- Whether a name consists of letters only. -/
def isWord (name : String) : Bool := !name.toList.isEmpty && name.toList.all Char.isAlpha

section Words

variable {name : String} {c : Char}

theorem isAlpha_of_isWord (h : isWord name = true) : ∀ c ∈ name.toList, c.isAlpha = true :=
  List.all_eq_true.1 (Bool.and_eq_true_iff.1 h).2

theorem exists_cons_of_isWord (h : isWord name = true) : ∃ c rest, name.toList = c :: rest := by
  cases hname : name.toList with
  | nil => simp [isWord, hname] at h
  | cons c rest => exact ⟨c, rest, rfl⟩

theorem isXmlBlank_of_isAlpha (h : c.isAlpha = true) : Text.isXmlBlank c = false := by
  have hne : ∀ d, d.isAlpha = false → c ≠ d := fun _ ↦ ne_of_isAlpha h
  simp [Text.isXmlBlank, hne ' ' rfl, hne '\t' rfl, hne '\n' rfl, hne '\r' rfl]

private theorem endsKey_of_isAlpha (h : c.isAlpha = true) : RawAttribute.endsKey c = false := by
  simp [RawAttribute.endsKey, isXmlBlank_of_isAlpha h, ne_of_isAlpha h (d := '=') rfl]

private theorem endsName_of_isAlpha (h : c.isAlpha = true) : Cursor.endsName c = false := by
  have hne : ∀ d, d.isAlpha = false → c ≠ d := fun _ ↦ ne_of_isAlpha h
  simp [Cursor.endsName, Text.isAsciiBlank, hne ' ' rfl, hne '\t' rfl, hne '\n' rfl, hne '\x0c' rfl,
    hne '\r' rfl, hne '>' rfl, hne '/' rfl, hne '=' rfl, hne '<' rfl, hne '?' rfl]

theorem notMem_of_isWord (h : isWord name = true) (hc : c.isAlpha = false) : c ∉ name.toList := by
  intro hmem
  rw [isAlpha_of_isWord h c hmem] at hc
  cases hc

end Words

/-! ## The end of a tag -/

section Cutting

variable {front rest content after : List Char} {name value : String}
  {attributes : List (String × String)}

theorem cutTag_append (hfront : ∀ c ∈ front, c ≠ '>' ∧ c ≠ '"' ∧ c ≠ '\'')
    (h : cutTag none rest = some (content, after)) :
    cutTag none (front ++ rest) = some (front ++ content, after) := by
  induction front with
  | nil => exact h
  | cons c front ih =>
    obtain ⟨hclose, hquot, hapos⟩ := hfront c List.mem_cons_self
    rw [List.cons_append, cutTag]
    dsimp only
    rw [if_neg hclose, if_neg (not_or.2 ⟨hquot, hapos⟩),
      ih fun d hd ↦ hfront d (List.mem_cons_of_mem c hd)]
    rfl

/-- What stands in quotes does not end a tag. -/
theorem cutTag_quoted (hvalue : '"' ∉ front) (h : cutTag none rest = some (content, after)) :
    cutTag (some '"') (front ++ '"' :: rest) = some (front ++ '"' :: content, after) := by
  induction front with
  | nil =>
    rw [List.nil_append, cutTag, if_pos rfl, h]
    rfl
  | cons c front ih =>
    rw [List.mem_cons, not_or] at hvalue
    rw [List.cons_append, cutTag, if_neg (Ne.symm hvalue.1), ih hvalue.2]
    rfl

theorem ne_of_isWord (h : isWord name = true) :
    ∀ c ∈ name.toList, c ≠ '>' ∧ c ≠ '"' ∧ c ≠ '\'' := by
  intro c hc
  have halpha := isAlpha_of_isWord h c hc
  exact ⟨ne_of_isAlpha halpha rfl, ne_of_isAlpha halpha rfl, ne_of_isAlpha halpha rfl⟩

private theorem cutTag_writeAttribute (hname : isWord name = true)
    (h : cutTag none rest = some (content, after)) :
    cutTag none (writeAttribute (name, value) ++ rest) =
      some (writeAttribute (name, value) ++ content, after) := by
  have hquoted : cutTag none ('"' :: (escape value ++ '"' :: rest)) =
      some ('"' :: (escape value ++ '"' :: content), after) := by
    rw [cutTag]
    dsimp only
    rw [if_neg (by decide), if_pos (Or.inl rfl), cutTag_quoted (notMem_escape rfl value) h]
    rfl
  have hfront : ∀ c ∈ ' ' :: (name.toList ++ ['=']), c ≠ '>' ∧ c ≠ '"' ∧ c ≠ '\'' := by
    simp only [List.forall_mem_cons, List.forall_mem_append]
    exact ⟨by decide, ne_of_isWord hname, by decide, by simp⟩
  have hcut := cutTag_append hfront hquoted
  simpa [writeAttribute] using hcut

private theorem cutTag_attributes (hnames : ∀ attr ∈ attributes, isWord attr.1 = true)
    (h : cutTag none rest = some (content, after)) :
    cutTag none (attributes.flatMap writeAttribute ++ rest) =
      some (attributes.flatMap writeAttribute ++ content, after) := by
  induction attributes with
  | nil => exact h
  | cons attr attributes ih =>
    rw [List.flatMap_cons, List.append_assoc, List.append_assoc]
    refine cutTag_writeAttribute (hnames attr List.mem_cons_self) (ih fun attr' hattr' ↦ ?_)
    exact hnames attr' (List.mem_cons_of_mem attr hattr')

end Cutting

/-! ## The attributes of a tag -/

section Attributes

variable {seen : List RawAttribute} {offset : Nat} {c : Char} {text rest after : List Char}
  {name value : String} {attributes : List (String × String)}

theorem skipBlanks_cons (h : Text.isXmlBlank c = false) (offset : Nat) (rest : List Char) :
    RawAttribute.skipBlanks offset (c :: rest) = (offset, c :: rest) := by
  simp [RawAttribute.skipBlanks, h]

private theorem readValue_escape (offset : Nat) (value : String) (after : List Char) :
    ∃ stop, RawAttribute.readValue offset ('"' :: (escape value ++ '"' :: after)) =
      .ok (escape value, stop, after) := by
  refine ⟨offset + 1 + Text.byteSize (escape value) + 1, ?_⟩
  rw [RawAttribute.readValue, skipBlanks_cons rfl]
  dsimp only
  rw [if_pos (by decide), Cursor.cutAt_singleton (notMem_escape rfl value)]

/-- A written attribute is read if its key is new. -/
theorem read_writeAttribute (hname : isWord name = true) (hcons : name.toList = c :: rest)
    (hseen : ∀ raw ∈ seen, raw.key ≠ name.toList) (offset : Nat) (value : String)
    (after : List Char) :
    ∃ stop, RawAttribute.read true seen offset c
        (rest ++ '=' :: '"' :: (escape value ++ '"' :: after)) =
      .ok (⟨offset, name.toList, escape value⟩, stop, after) := by
  have hrest : ∀ d ∈ rest, (!RawAttribute.endsKey d) = true := by
    intro d hd
    rw [endsKey_of_isAlpha (isAlpha_of_isWord hname d (hcons ▸ List.mem_cons_of_mem c hd))]
    rfl
  have hhead : ∀ d ∈ ('=' :: '"' :: (escape value ++ '"' :: after)).head?,
      (!RawAttribute.endsKey d) = false := by
    simp [RawAttribute.endsKey]
  obtain ⟨htake, hdrop⟩ := Text.span_eq hrest hhead
  have hearlier : RawAttribute.earlier? true seen (c :: rest) = none := by
    rw [RawAttribute.earlier?, if_pos rfl, List.find?_eq_none.2]
    · rfl
    · intro raw hraw
      rw [← hcons, beq_iff_eq]
      exact hseen raw hraw
  obtain ⟨stop, hvalue⟩ := readValue_escape (offset + Text.byteSize (c :: rest) + 1) value after
  refine ⟨stop, ?_⟩
  rw [RawAttribute.read, htake, hdrop, skipBlanks_cons rfl, hearlier]
  simp only [hvalue, hcons]

/-- The attributes of a written tag are read as they were written. -/
theorem readAll_attributes (hnames : ∀ attr ∈ attributes, isWord attr.1 = true)
    (hnodup : (attributes.map Prod.fst).Nodup)
    (hseen : ∀ attr ∈ attributes, ∀ raw ∈ seen, raw.key ≠ attr.1.toList) (offset : Nat) :
    ∃ raws, RawAttribute.readAll true seen offset (attributes.flatMap writeAttribute) =
        (raws, none) ∧
      List.Forall₂ (fun raw attr ↦ raw.key = attr.1.toList ∧ raw.value = escape attr.2)
        raws attributes := by
  induction attributes generalizing seen offset with
  | nil => exact ⟨[], RawAttribute.readAll_nil rfl, .nil⟩
  | cons attr attributes ih =>
    obtain ⟨name, value⟩ := attr
    rw [List.map_cons, List.nodup_cons] at hnodup
    obtain ⟨hname, hnames⟩ := List.forall_mem_cons.1 hnames
    obtain ⟨hfirst, hlater⟩ := List.forall_mem_cons.1 hseen
    obtain ⟨c, rest, hcons⟩ := exists_cons_of_isWord hname
    have hblank : Text.isXmlBlank c = false :=
      isXmlBlank_of_isAlpha (isAlpha_of_isWord hname c (hcons ▸ List.mem_cons_self))
    obtain ⟨stop, hread⟩ := read_writeAttribute hname hcons hfirst (offset + 1) value
      (attributes.flatMap writeAttribute)
    have hskip : RawAttribute.skipBlanks offset
        (((name, value) :: attributes).flatMap writeAttribute) =
        (offset + 1, c :: (rest ++ '=' :: '"' :: (escape value ++ '"' ::
          attributes.flatMap writeAttribute))) := by
      have hspace : Text.isXmlBlank ' ' = true := rfl
      simp [RawAttribute.skipBlanks, writeAttribute, hcons, hblank, hspace]
    -- Later keys differ from this one too.
    have hseen' : ∀ attr ∈ attributes, ∀ raw ∈ seen ++ [⟨offset + 1, name.toList, escape value⟩],
        raw.key ≠ attr.1.toList := by
      intro attr hattr raw hraw
      rcases List.mem_append.1 hraw with hraw | hraw
      · exact hlater attr hattr raw hraw
      · rw [List.mem_singleton.1 hraw]
        intro heq
        apply hnodup.1
        exact List.mem_map.2 ⟨attr, hattr, String.toList_inj.1 heq.symm⟩
    obtain ⟨raws, hraws, hall⟩ := ih hnames hnodup.2 hseen' stop
    refine ⟨⟨offset + 1, name.toList, escape value⟩ :: raws, ?_, .cons ⟨rfl, rfl⟩ hall⟩
    rw [RawAttribute.readAll_cons hskip hread, hraws]

end Attributes

end Report

/-! ## Texts that run -/

namespace Tree.Builder

open Report

variable {b b' b'' : Builder} {text text' rest : List Char}

/-- A text leads from one state of building to another. What follows it is left alone, and its
pieces are plain. -/
def Runs (b : Builder) (text rest : List Char) (b' : Builder) : Prop :=
  ∀ offset, ∃ pieces,
    Piece.cutAll offset (text ++ rest) =
      (pieces ++ (Piece.cutAll (offset + Text.byteSize text) rest).1,
        (Piece.cutAll (offset + Text.byteSize text) rest).2) ∧
    pieces.foldlM Builder.take b = .ok b' ∧ ∀ piece ∈ pieces, piece.IsPlain

namespace Runs

theorem nil (b : Builder) (rest : List Char) : b.Runs [] rest b := fun _ ↦
  ⟨[], rfl, rfl, by simp⟩

theorem trans (h : b.Runs text (text' ++ rest) b') (h' : b'.Runs text' rest b'') :
    b.Runs (text ++ text') rest b'' := by
  intro offset
  obtain ⟨pieces, hcut, hrun, hplain⟩ := h offset
  obtain ⟨pieces', hcut', hrun', hplain'⟩ := h' (offset + Text.byteSize text)
  refine ⟨pieces ++ pieces', ?_, ?_, List.forall_mem_append.2 ⟨hplain, hplain'⟩⟩
  · rw [List.append_assoc, hcut, hcut', Text.byteSize_append, List.append_assoc, Nat.add_assoc]
  · rw [List.foldlM_append, hrun]
    exact hrun'

/-- A text that is one piece. -/
theorem piece {c : Char} {raw : List Char} {form : Form}
    (hcut : Piece.cutFirst c text = .ok (form, rest)) (hraw : c :: text = raw ++ rest)
    (htake : ∀ offset, b.take ⟨offset, raw, form⟩ = .ok b')
    (hplain : ∀ offset, (⟨offset, raw, form⟩ : Piece).IsPlain) : b.Runs raw rest b' := by
  intro offset
  refine ⟨[⟨offset, raw, form⟩], ?_, ?_, ?_⟩
  · rw [← hraw, Piece.cutAll_cons hcut hraw]
    rfl
  · exact foldlM_cons_eq_ok_iff.2 ⟨b', htake offset, rfl⟩
  · exact List.forall_mem_singleton.2 (hplain offset)

end Runs

theorem checkChars_of_isXmlChar (h : ∀ c ∈ text, IsXmlChar c) : checkChars text = .ok () := by
  have hfind : text.find? (!isXmlChar ·) = none := by
    refine List.find?_eq_none.2 fun c hc ↦ ?_
    rw [isXmlChar_iff.2 (h c hc)]
    exact Bool.false_ne_true
  rw [checkChars, hfind]

/-- The state after a text, which leaves no trace if it is empty. -/
def addText (b : Builder) (content : String) : Builder :=
  if content = "" then b else b.appendLeaf (.text content)

private theorem takeText_escape {content : String} (hchars : ∀ c ∈ content.toList, IsXmlChar c)
    (hblank : b.frames = [] → ∀ c ∈ content.toList, Text.isXmlBlank c = true) (start stop : Nat) :
    b.takeText start stop (escape content) = .ok (b.appendLeaf (.text content)) := by
  have hexpand : b.expandReferences (escape content) = .ok content.toList := by
    rw [expandReferences, unescape_escape]
  have hinside : (b.frames.isEmpty && !content.toList.all Text.isXmlBlank) = false := by
    cases hframes : b.frames with
    | nil => simpa using hblank hframes
    | cons => rfl
  rw [takeText, hexpand]
  refine bind_eq_ok_iff.2 ⟨content.toList, rfl, ?_⟩
  rw [hinside, checkChars_of_isXmlChar hchars, String.ofList_toList]
  rfl

private theorem exists_cons_of_escape {content : String} (h : content ≠ "") :
    ∃ c more, escape content = c :: more := by
  cases hcontent : content.toList with
  | nil => exact absurd (String.toList_eq_nil_iff.1 hcontent) h
  | cons c chars =>
    rw [escape, hcontent, List.flatMap_cons]
    rcases escapeChar_cases c with ⟨name, heq, -⟩ | ⟨heq, -⟩
    · exact ⟨_, _, by rw [heq, List.cons_append]⟩
    · exact ⟨_, _, by rw [heq, List.cons_append]⟩

/-- A written text becomes a text of the tree. -/
theorem runs_escape {content : String} (hchars : ∀ c ∈ content.toList, IsXmlChar c)
    (hblank : b.frames = [] → ∀ c ∈ content.toList, Text.isXmlBlank c = true)
    (hrest : rest.head? = some '<') : b.Runs (escape content) rest (b.addText content) := by
  by_cases hempty : content = ""
  · rw [addText, if_pos hempty, hempty]
    exact .nil b rest
  · rw [addText, if_neg hempty]
    obtain ⟨c, more, hcons⟩ := exists_cons_of_escape hempty
    have hplain : ∀ d ∈ c :: more, d ≠ '<' := by
      rintro d hd rfl
      exact notMem_escape rfl content (hcons ▸ hd)
    have hmore : ∀ d ∈ more, (d != '<') = true := fun d hd ↦
      bne_iff_ne.2 (hplain d (List.mem_cons_of_mem c hd))
    have hhead : ∀ d ∈ rest.head?, (d != '<') = false := by simp [hrest]
    have hcut : Piece.cutFirst c (more ++ rest) = .ok (.text, rest) := by
      rw [Piece.cutFirst, if_neg (hplain c List.mem_cons_self), (Text.span_eq hmore hhead).2]
    have hraw : c :: (more ++ rest) = escape content ++ rest := by rw [hcons, List.cons_append]
    exact .piece hcut hraw (fun _ ↦ takeText_escape hchars hblank _ _) fun _ ↦ trivial

/-! ## Tags -/

section Tags

variable {name key : String} {attributes : List (String × String)} {selfClosing : Bool}
  {raws : List RawAttribute}

/-- A name without qualifier and without namespace. -/
def plainName (name : String) : QName := ⟨none, name, none⟩

/-- Attributes whose keys are different words, none of which declares a namespace, and whose values
may stand in a document. -/
structure ProperAttributes (attributes : List (String × String)) : Prop where
  isWord : ∀ attr ∈ attributes, isWord attr.1 = true
  ne_xmlns : ∀ attr ∈ attributes, attr.1 ≠ "xmlns"
  isXmlChar : ∀ attr ∈ attributes, ∀ c ∈ attr.2.toList, IsXmlChar c
  nodup : (attributes.map Prod.fst).Nodup

private theorem cutAt_eq_none {c : Char} (h : c ∉ text) : Text.cutAt [c] text = none := by
  induction text with
  | nil => rfl
  | cons d text ih =>
    rw [List.mem_cons, not_or] at h
    rw [Text.cutAt, Text.stripStart?, if_neg h.1, ih h.2]
    rfl

theorem ofWritten_of_isWord (h : isWord name = true) :
    QName.ofWritten name.toList = plainName name ∧ qualifierOf name.toList = none := by
  have hcut := cutAt_eq_none (notMem_of_isWord (c := ':') h rfl)
  constructor
  · rw [QName.ofWritten, hcut, plainName, String.ofList_toList]
  · rw [qualifierOf, hcut]
    rfl

private theorem declared?_of_isWord (h : isWord key = true) (hxmlns : key ≠ "xmlns") :
    Scope.declared? key.toList = none := by
  unfold Scope.declared?
  split
  · rename_i hstrip
    refine absurd (String.toList_inj.1 ?_) hxmlns
    rw [Text.stripStart?_eq_some_iff.1 hstrip, List.append_nil]
  · rename_i hstrip
    refine absurd ?_ (notMem_of_isWord (c := ':') h rfl)
    rw [Text.stripStart?_eq_some_iff.1 hstrip]
    simp
  · rfl

private theorem enter_of_declared?_eq_none {scope : Scope}
    (h : ∀ raw ∈ raws, Scope.declared? raw.key = none) : scope.enter raws = .ok scope := by
  induction raws with
  | nil => rfl
  | cons raw raws ih =>
    obtain ⟨hraw, hraws⟩ := List.forall_mem_cons.1 h
    refine foldlM_cons_eq_ok_iff.2 ⟨scope, ?_, ih hraws⟩
    rw [Scope.bind, hraw]

private theorem elementName_of_isWord (h : isWord name = true) :
    elementName .aware Scope.initial name.toList = .ok (plainName name) := by
  obtain ⟨hwritten, hqualifier⟩ := ofWritten_of_isWord h
  rw [elementName, hqualifier, hwritten]
  rfl

private theorem attributeName_of_isWord (h : isWord key = true) (hxmlns : key ≠ "xmlns")
    (scope : Scope) : attributeName .aware scope key.toList = .ok (plainName key) := by
  obtain ⟨hwritten, hqualifier⟩ := ofWritten_of_isWord h
  have hdeclares : (plainName key).declaresNamespace = false := beq_eq_false_iff_ne.2 hxmlns
  rw [attributeName, hwritten, hdeclares, if_neg Bool.false_ne_true, hqualifier]

/-- The attributes of a written tag, as they are found in its scope. -/
theorem readAttributes_of_isWord (hmode : b.tree.mode = .aware)
    (hproper : ProperAttributes attributes)
    (hraws : List.Forall₂ (fun raw attr ↦ raw.key = attr.1.toList ∧ raw.value = escape attr.2)
      raws attributes) (scope : Scope) :
    b.readAttributes scope (raws, none) =
      .ok (attributes.map fun attr ↦ (plainName attr.1, attr.2.toList)) := by
  have hwords := hproper.isWord
  have hxmlns := hproper.ne_xmlns
  clear hproper
  induction hraws with
  | nil => rw [readAttributes, List.map_nil]
  | @cons raw attr raws attributes hraw _ ih =>
    obtain ⟨hword, hwords⟩ := List.forall_mem_cons.1 hwords
    obtain ⟨hne, hxmlns⟩ := List.forall_mem_cons.1 hxmlns
    have hname : attributeName b.tree.mode scope raw.key = .ok (plainName attr.1) := by
      rw [hmode, hraw.1]
      exact attributeName_of_isWord hword hne scope
    have hvalue : b.expandReferences raw.value = .ok attr.2.toList := by
      rw [hraw.2, expandReferences, unescape_escape]
    rw [readAttributes]
    exact bind_eq_ok_iff.2 ⟨_, hname, bind_eq_ok_iff.2 ⟨_, hvalue,
      bind_eq_ok_iff.2 ⟨_, ih hwords hxmlns, rfl⟩⟩⟩

/-- The state after a tag that holds nothing. -/
def addTag (b : Builder) (name : String) (attributes : List (String × String)) : Builder :=
  { b with
    tree := b.tree.appendElement b.parent (plainName name)
      (attributes.map fun attr ↦ (plainName attr.1, attr.2))
    rootSeen := true }

/-- The state inside a tag. -/
def openElement (b : Builder) (name : String) (attributes : List (String × String)) : Builder :=
  { b.addTag name attributes with
    frames := ⟨b.tree.size, name.toList, b.scope⟩ :: b.frames
    scope := Scope.initial }

private theorem addElement_of_isXmlChar (hroot : b.frames = [] → b.rootSeen = false)
    (hchars : ∀ attr ∈ attributes, ∀ c ∈ attr.2.toList, IsXmlChar c) :
    b.addElement (plainName name)
        (attributes.map fun attr ↦ (plainName attr.1, attr.2.toList)) =
      .ok (b.addTag name attributes) := by
  have hfirst : (b.frames.isEmpty && b.rootSeen) = false := by
    cases hframes : b.frames with
    | nil => rw [hroot hframes]; rfl
    | cons => rfl
  have hforM : (attributes.map fun attr ↦ (plainName attr.1, attr.2.toList)).forM
      (fun attr ↦ checkChars attr.2) = .ok () := by
    induction attributes with
    | nil => rfl
    | cons attr attributes ih =>
      obtain ⟨hattr, hattrs⟩ := List.forall_mem_cons.1 hchars
      exact bind_eq_ok_iff.2 ⟨(), checkChars_of_isXmlChar hattr, ih hattrs⟩
  have hmap : (attributes.map fun attr ↦ (plainName attr.1, attr.2.toList)).map
      (fun attr ↦ (attr.1, String.ofList attr.2)) =
      attributes.map fun attr ↦ (plainName attr.1, attr.2) := by
    simp [Function.comp_def]
  rw [addElement, hfirst, if_neg Bool.false_ne_true, addTag, ← hmap]
  exact bind_eq_ok_iff.2 ⟨(), hforM, rfl⟩

/-- What stands between the brackets of a written tag. -/
def tagContent (name : String) (attributes : List (String × String)) : List Char :=
  name.toList ++ attributes.flatMap writeAttribute

theorem span_tagContent (hname : isWord name = true) (attributes : List (String × String)) :
    (tagContent name attributes).takeWhile (!Text.isXmlBlank ·) = name.toList ∧
      (tagContent name attributes).dropWhile (!Text.isXmlBlank ·) =
        attributes.flatMap writeAttribute := by
  refine Text.span_eq (fun c hc ↦ ?_) ?_
  · rw [isXmlBlank_of_isAlpha (isAlpha_of_isWord hname c hc)]
    rfl
  · cases attributes with
    | nil => simp
    | cons attr attributes => simp [writeAttribute, Text.isXmlBlank]

private theorem takeOpenTag_tagContent (hname : isWord name = true)
    (hproper : ProperAttributes attributes)
    (hmode : b.tree.mode = .aware) (hscope : b.scope = Scope.initial)
    (hroot : b.frames = [] → b.rootSeen = false) (start stop : Nat) :
    b.takeOpenTag start stop (tagContent name attributes) selfClosing =
      .ok (if selfClosing then b.addTag name attributes else b.openElement name attributes) := by
  obtain ⟨hwritten, hrest⟩ := span_tagContent hname attributes
  obtain ⟨raws, hraws, hall⟩ := readAll_attributes hproper.isWord hproper.nodup
    (fun _ _ raw hraw ↦ absurd hraw List.not_mem_nil) (Text.byteSize name.toList)
  have henter : b.scope.enter raws = .ok Scope.initial := by
    rw [hscope]
    refine enter_of_declared?_eq_none fun raw hraw ↦ ?_
    obtain ⟨attr, hattr, hkey, -⟩ := exists_of_forall₂_of_mem hall hraw
    rw [hkey]
    exact declared?_of_isWord (hproper.isWord attr hattr) (hproper.ne_xmlns attr hattr)
  have hattrs := readAttributes_of_isWord hmode hproper hall Scope.initial
  have hadd : b.addElement (plainName name) _ = .ok (b.addTag name attributes) :=
    addElement_of_isXmlChar hroot hproper.isXmlChar
  rw [takeOpenTag, hwritten, hrest]
  dsimp only
  rw [RawAttribute.readAll_false hraws, henter, hraws, hmode]
  refine bind_eq_ok_iff.2 ⟨Scope.initial, rfl, bind_eq_ok_iff.2 ⟨plainName name, ?_,
    bind_eq_ok_iff.2 ⟨_, reportAt_eq_ok_iff.2 hattrs,
      bind_eq_ok_iff.2 ⟨_, reportAt_eq_ok_iff.2 hadd, ?_⟩⟩⟩⟩
  · exact reportAt_eq_ok_iff.2 (elementName_of_isWord hname)
  · cases selfClosing <;> rfl

private theorem cutMarkup_of_isAlpha {c : Char} (h : c.isAlpha = true) (text : List Char) :
    cutMarkup (c :: text) = cutOpenTag (c :: text) := by
  unfold cutMarkup
  split
  · rename_i heq
    cases heq
  · rename_i heq
    cases heq
    exact absurd h (by decide)
  · rename_i heq
    cases heq
    exact absurd h (by decide)
  · rename_i heq
    cases heq
    exact absurd h (by decide)
  · rfl

/-- A tag that holds something does not look as if it were closed at once. -/
theorem getLast?_tagContent (hname : isWord name = true) (attributes : List (String × String)) :
    (tagContent name attributes).getLast? ≠ some '/' := by
  rcases List.eq_nil_or_concat attributes with rfl | ⟨front, attr, rfl⟩
  · intro hlast
    rw [tagContent, List.flatMap_nil, List.append_nil] at hlast
    exact notMem_of_isWord hname (c := '/') rfl (List.mem_of_getLast? hlast)
  · have hconcat : tagContent name (front.concat attr) =
        (name.toList ++ front.flatMap writeAttribute ++ ' ' :: attr.1.toList ++ ['=', '"'] ++
          escape attr.2) ++ ['"'] := by
      simp [tagContent, writeAttribute]
    rw [hconcat, List.getLast?_concat]
    simp

private theorem cutOpenTag_tagContent (hname : isWord name = true)
    (hproper : ProperAttributes attributes) (rest : List Char) :
    cutOpenTag (tagContent name attributes ++ (Cursor.tagStop selfClosing ++ rest)) =
      .ok (.openTag (tagContent name attributes) selfClosing, rest) := by
  have hcut : cutTag none (tagContent name attributes ++ (Cursor.tagStop selfClosing ++ rest)) =
      some (tagContent name attributes ++ if selfClosing then ['/'] else [], rest) := by
    rw [tagContent, List.append_assoc, List.append_assoc]
    refine cutTag_append (ne_of_isWord hname) (cutTag_attributes hproper.isWord ?_)
    cases selfClosing <;> rfl
  rw [cutOpenTag, hcut]
  dsimp only
  cases selfClosing with
  | true =>
    rw [if_pos rfl, List.getLast?_concat, if_pos rfl, List.dropLast_concat]
  | false =>
    rw [if_neg Bool.false_ne_true, List.append_nil, if_neg (getLast?_tagContent hname attributes)]

/-- A written tag adds an element, and opens it unless the tag is closed at once. -/
theorem runs_openTag (hname : isWord name = true) (hproper : ProperAttributes attributes)
    (hmode : b.tree.mode = .aware) (hscope : b.scope = Scope.initial)
    (hroot : b.frames = [] → b.rootSeen = false) (selfClosing : Bool) (rest : List Char) :
    b.Runs (openTag name attributes ++ Cursor.tagStop selfClosing) rest
      (if selfClosing then b.addTag name attributes else b.openElement name attributes) := by
  obtain ⟨c, more, hcons⟩ := exists_cons_of_isWord hname
  have halpha := isAlpha_of_isWord hname c (hcons ▸ List.mem_cons_self)
  have hcut : Piece.cutFirst '<'
      (tagContent name attributes ++ (Cursor.tagStop selfClosing ++ rest)) =
      .ok (.openTag (tagContent name attributes) selfClosing, rest) := by
    rw [Piece.cutFirst, if_pos rfl, ← cutOpenTag_tagContent hname hproper, tagContent, hcons]
    exact cutMarkup_of_isAlpha halpha _
  refine .piece hcut (by simp [openTag, tagContent])
    (fun _ ↦ takeOpenTag_tagContent hname hproper hmode hscope hroot _ _) fun offset ↦ ?_
  obtain ⟨hwritten, hrest⟩ := span_tagContent hname attributes
  obtain ⟨raws, hraws, hall⟩ := readAll_attributes hproper.isWord hproper.nodup
    (fun _ _ raw hraw ↦ absurd hraw List.not_mem_nil) (Text.byteSize name.toList)
  rw [Piece.IsPlain]
  dsimp only
  rw [hwritten, hrest, hraws]
  refine ⟨⟨by simp [hcons], fun d hd ↦ endsName_of_isAlpha (isAlpha_of_isWord hname d hd)⟩, ?_⟩
  intro raw hraw d hd
  obtain ⟨attr, hattr, hkey, -⟩ := exists_of_forall₂_of_mem hall hraw
  rw [hkey] at hd
  exact endsName_of_isAlpha (isAlpha_of_isWord (hproper.isWord attr hattr) d hd)

private theorem trimName_of_isWord (hname : isWord name = true) :
    trimName name.toList = name.toList := by
  have hlast : ∀ c ∈ name.toList.reverse.head?, Text.isXmlBlank c = false := by
    intro c hc
    have hmem := List.mem_reverse.1 (List.mem_of_mem_head? hc)
    exact isXmlBlank_of_isAlpha (isAlpha_of_isWord hname c hmem)
  have hdrop : name.toList.reverse.dropWhile Text.isXmlBlank = name.toList.reverse :=
    (Text.span_eq (fun c hc ↦ absurd hc List.not_mem_nil) hlast).2
  unfold trimName
  split
  · rfl
  · rw [Text.trimEnd, hdrop, List.reverse_reverse]

/-- A closing tag closes the element of its name. -/
theorem runs_closeTag {frame : Frame} {frames : List Frame} (hname : isWord name = true)
    (hframes : b.frames = frame :: frames) (hframe : frame.name = name.toList) (rest : List Char) :
    b.Runs (closeTag name) rest { b with frames, scope := frame.outer } := by
  have hcut : Piece.cutFirst '<' ('/' :: (name.toList ++ '>' :: rest)) =
      .ok (.closeTag name.toList, rest) := by
    have hend : cutTag none (name.toList ++ '>' :: rest) = some (name.toList ++ [], rest) :=
      cutTag_append (ne_of_isWord hname) rfl
    rw [Piece.cutFirst, if_pos rfl, cutMarkup, cutCloseTag, hend, List.append_nil]
    dsimp only
    rw [trimName_of_isWord hname]
  refine .piece hcut (by simp [closeTag]) (fun offset ↦ ?_) fun _ ↦ trivial
  refine reportAt_eq_ok_iff.2 ?_
  rw [takeCloseTag, hframes]
  exact if_pos hframe

end Tags

end Tree.Builder

end XmlInspect
