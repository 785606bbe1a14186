import XmlInspect.Check.Layout
import XmlInspect.Proofs.Coordinates
import XmlInspect.Proofs.Sniffing
import XmlInspect.Proofs.Solid

/-!
# Where the declaration is

Whether a file has an XML declaration is decided in several places. Cutting off the preamble looks
at what the first `<` of the content starts, the scan looks at what follows a `<?`, and the replay
takes a declaration only if nothing comes before it. One can also search for `<?xml`, and search on
after each occurrence that turns out to start the name of another instruction. All of them come to
the same answer.

That the replay records a declaration if and only if the text starts with one is an invariant. Every
token but a declaration leaves the record alone, and no other token starts where the text does.
-/

namespace XmlInspect

/-! ## Searching -/

private theorem Text.occursFirst_of_not_mem {c : Char} {front : List Char} (word rest : List Char)
    (h : c ∉ front) : OccursFirst (c :: word) (front ++ c :: word ++ rest) front where
  occurs := List.prefix_append _ _
  first other hother := by
    by_contra hlt
    obtain ⟨tail, htail⟩ := hother
    have hget : (front ++ c :: word ++ rest)[other.length]? = some c := by
      rw [← htail]
      simp
    rw [List.append_assoc, List.getElem?_append_left (Nat.lt_of_not_le hlt)] at hget
    exact h (List.mem_of_getElem? hget)

namespace Source

variable {content front rest : List Char} {offset : Nat}

/-- An XML declaration stands at this offset of a content, and no markup before it. -/
def DeclaresAt (content : List Char) (offset : Nat) : Prop :=
  ∃ front c rest, content = front ++ "<?xml".toList ++ c :: rest ∧ '<' ∉ front ∧
    (Text.isAsciiBlank c = true ∨ c = '?') ∧ offset = Text.byteSize front

/-- Looks for a declaration in what comes after `front`. It searches on after what only starts like
one. -/
def findDeclarationFrom (front rest : List Char) : Option Nat :=
  match h : Text.cutAt "<?xml".toList rest with
  | none => none
  | some (before, after) =>
    have : after.length < rest.length := by
      rw [Text.eq_append_of_cutAt h]
      simp
      omega
    if '<' ∈ front ++ before then
      none
    else if after.head?.any (fun c ↦ Text.isAsciiBlank c || c == '?') then
      some (Text.byteSize (front ++ before))
    else
      findDeclarationFrom (front ++ before ++ "<?xml".toList) after
termination_by rest.length

/-- The offset of the declaration of a content. -/
def findDeclaration? (content : List Char) : Option Nat := findDeclarationFrom [] content

private theorem findDeclarationFrom_of_mem (h : '<' ∈ front) (rest : List Char) :
    findDeclarationFrom front rest = none := by
  rw [findDeclarationFrom]
  split
  · rfl
  · exact if_pos (List.mem_append_left _ h)

/-- Searching on finds the declaration that stands after no other markup. -/
theorem findDeclaration?_eq_some_iff :
    findDeclaration? content = some offset ↔ DeclaresAt content offset := by
  constructor
  · intro h
    rw [findDeclaration?, findDeclarationFrom] at h
    split at h
    · cases h
    rename_i before after hcut
    split at h
    · cases h
    rename_i hmarkup
    split at h
    · rename_i hnext
      cases h
      cases after with
      | nil => cases hnext
      | cons c rest =>
        exact ⟨before, c, rest, Text.eq_append_of_cutAt hcut, hmarkup, by simpa using hnext, rfl⟩
    · -- What only starts alike is markup itself, so nothing behind it counts.
      rw [findDeclarationFrom_of_mem (by simp)] at h
      cases h
  · rintro ⟨front, c, rest, rfl, hmarkup, hc, rfl⟩
    have hcut : Text.cutAt "<?xml".toList (front ++ "<?xml".toList ++ c :: rest) =
        some (front, c :: rest) :=
      Text.cutAt_eq_some_iff.2 ⟨rfl, Text.occursFirst_of_not_mem _ _ hmarkup⟩
    rw [findDeclaration?, findDeclarationFrom]
    split
    · rename_i hnone
      rw [hcut] at hnone
      cases hnone
    · rename_i hsome
      rw [hcut] at hsome
      cases hsome
      rw [List.nil_append, if_neg hmarkup, if_pos (by simpa using hc)]

private theorem not_mem_preamble (content : List Char) : '<' ∉ (splitPreamble content).1 := by
  unfold splitPreamble
  dsimp only
  split
  · intro hmem
    simpa using List.mem_takeWhile_imp hmem
  · exact List.not_mem_nil

private theorem declaresAt_content_iff (uri : String) (charset : Charset) (text : List Char) :
    DeclaresAt (ofChars uri charset text).content offset ↔
      startsDeclaration (ofChars uri charset text).body = true ∧
        offset = (ofChars uri charset text).bodyOffset := by
  constructor
  · rintro ⟨front, c, rest, hcontent, hmarkup, hc, rfl⟩
    have hstarts : startsDeclaration ("<?xml".toList ++ c :: rest) = true :=
      startsDeclaration_iff.2 ⟨c, rest, rfl, hc⟩
    have hsplit := splitPreamble_of_startsDeclaration hmarkup hstarts
    rw [← List.append_assoc, ← hcontent, content_ofChars] at hsplit
    have hpreamble : (ofChars uri charset text).preamble = front := congrArg Prod.fst hsplit
    have hbody : (ofChars uri charset text).body = "<?xml".toList ++ c :: rest :=
      congrArg Prod.snd hsplit
    rw [hbody, bodyOffset, hpreamble]
    exact ⟨hstarts, rfl⟩
  · rintro ⟨hstarts, rfl⟩
    obtain ⟨c, rest, hbody, hc⟩ := startsDeclaration_iff.1 hstarts
    refine ⟨(ofChars uri charset text).preamble, c, rest, ?_, not_mem_preamble _, hc, rfl⟩
    rw [content, hbody, List.append_assoc]

end Source

/-! ## The first token -/

private theorem Source.startsDeclaration_cons_cons (rest : List Char) :
    startsDeclaration ('<' :: '?' :: rest) = Cursor.startsDeclaration rest := rfl

namespace Token

variable {text : List Char} {token : Token} {prolog : PrologSpans}

/-- What is recorded of a token if it is a declaration. -/
def prolog? (token : Token) : Option PrologSpans :=
  match token.form with
  | .declaration attributes => some ⟨token.span, token.opening, token.closing, attributes⟩
  | _ => none

/-- A text starts with a declaration, of which this is recorded. -/
def Opens (text : List Char) (prolog : PrologSpans) : Prop :=
  ∃ token : Token, token.Scanned text ∧ token.start = 0 ∧ token.prolog? = some prolog

theorem prolog?_eq_some_iff : token.prolog? = some prolog ↔
    ∃ attributes, token.form = .declaration attributes ∧
      prolog = ⟨token.span, token.opening, token.closing, attributes⟩ := by
  unfold prolog?
  constructor
  · intro h
    split at h
    · rename_i attributes hform
      exact ⟨attributes, hform, (Option.some.inj h).symm⟩
    · cases h
  · rintro ⟨attributes, hform, rfl⟩
    rw [hform]

private theorem Opens.start_whole (h : Opens text prolog) : prolog.whole.start = 0 := by
  obtain ⟨token, -, hstart, hprolog⟩ := h
  obtain ⟨attributes, -, rfl⟩ := prolog?_eq_some_iff.1 hprolog
  exact hstart

theorem Scanned.opens_iff (h : token.Scanned text) (hstart : token.start = 0) :
    Opens text prolog ↔ token.prolog? = some prolog := by
  constructor
  · rintro ⟨other, hother, hstart', hprolog⟩
    rw [h.unique hother (hstart.trans hstart'.symm)]
    exact hprolog
  · exact fun hprolog ↦ ⟨token, h, hstart, hprolog⟩

private theorem Scanned.isSome_prolog?_iff (h : token.Scanned text) (hstart : token.start = 0) :
    token.prolog?.isSome = true ↔ Source.startsDeclaration text = true := by
  have htext : ∀ {rest}, Cursor.IsIn ⟨token.start, rest⟩ text → text = rest := by
    rintro rest ⟨before, htext, hbefore⟩
    rw [hstart] at hbefore
    rw [htext, Text.byteSize_eq_zero_iff.1 hbefore.symm]
    rfl
  constructor
  · intro hsome
    obtain ⟨prolog, hprolog⟩ := Option.isSome_iff_exists.1 hsome
    obtain ⟨attributes, hform, -⟩ := prolog?_eq_some_iff.1 hprolog
    obtain ⟨after, next, hin, hmarkup, -⟩ := h.exists_markup (by simp [hform])
    rw [hform] at hmarkup
    obtain ⟨rest, rfl, hinstruction⟩ := Cursor.reads_of_markup hmarkup
    obtain ⟨content, -, -, hattrs⟩ := Cursor.instruction_eq_ok_iff.1 hinstruction
    rw [htext hin, Source.startsDeclaration_cons_cons]
    by_contra hnot
    rw [if_neg hnot] at hattrs
    cases hattrs
  · intro hstarts
    obtain ⟨c, rest, next, hin, htoken, -⟩ := h
    obtain ⟨d, tail, hd, -⟩ := Source.startsDeclaration_iff.1 hstarts
    obtain ⟨rfl, rfl⟩ : c = '<' ∧ rest = '?' :: ("xml".toList ++ d :: tail) :=
      List.cons.inj ((htext hin).symm.trans hd)
    have hinstruction : Cursor.instruction token.start ("xml".toList ++ d :: tail) =
        .ok (token.form, next) := htoken
    obtain ⟨content, -, -, hattrs⟩ := Cursor.instruction_eq_ok_iff.1 hinstruction
    rw [htext hin, Source.startsDeclaration_cons_cons] at hstarts
    rw [if_pos hstarts] at hattrs
    obtain ⟨attrs, -, hform⟩ := hattrs
    rw [prolog?, hform]
    rfl

private theorem exists_first (hscan : (scan text).2 = none) (hne : text ≠ []) :
    ∃ token : Token, token.Scanned text ∧ token.start = 0 := by
  have hchained := chained_of_scan text
  have hstop := stopAfter_of_scan hscan
  cases htokens : (scan text).1 with
  | nil =>
    rw [htokens] at hstop
    exact absurd (Text.byteSize_eq_zero_iff.1 hstop.symm) hne
  | cons token tokens =>
    rw [htokens] at hchained
    exact ⟨token, hchained.2.1, hchained.1⟩

end Token

/-! ## The record -/

namespace Binder

variable {tree : Tree} {text : List Char} {d d' : Binder} {token : Token} {offset stop : Nat}

/-- A declaration is recorded once it was read, and that is at the start of the text. -/
def Recorded (text : List Char) (d : Binder) (offset : Nat) : Prop :=
  ∀ prolog, d.spans.prolog = some prolog ↔ 0 < offset ∧ Token.Opens text prolog

private theorem prolog_of_takes (h : d.Takes token d') :
    (token.prolog? = none ∧ d'.spans.prolog = d.spans.prolog) ∨
      token.start = 0 ∧ d'.spans.prolog = token.prolog? := by
  unfold Takes at h
  unfold Token.prolog?
  split at h
  · cases h
  · rename_i hform
    obtain ⟨hstart, -, rfl⟩ := h
    rw [hform]
    exact Or.inr ⟨hstart, rfl⟩
  · rename_i hform
    rw [hform, h]
    exact Or.inl ⟨rfl, rfl⟩
  · rename_i hform
    obtain ⟨id, kind, -, rfl⟩ := h
    rw [hform]
    exact Or.inl ⟨rfl, rfl⟩
  · rename_i hform
    obtain ⟨id, kind, -, rfl⟩ := h
    rw [hform]
    exact Or.inl ⟨rfl, rfl⟩
  · rename_i hform
    obtain ⟨id, kind, -, rfl⟩ := h
    rw [hform]
    exact Or.inl ⟨rfl, rfl⟩
  · rename_i hform
    obtain ⟨id, ids, -, rfl⟩ := h
    rw [hform]
    exact Or.inl ⟨rfl, TreeSpans.prolog_fillAttrs _ _⟩
  · rename_i hform
    obtain ⟨id, ids, -, rfl⟩ := h
    rw [hform]
    exact Or.inl ⟨rfl, TreeSpans.prolog_fillAttrs _ _⟩
  · rename_i hform
    obtain ⟨visit, outer, opening, name, -, -, -, -, rfl⟩ := h
    rw [hform]
    exact Or.inl ⟨rfl, rfl⟩

/-- What starts with another token than a declaration changes nothing. If it is the first, then
there is no declaration. -/
theorem Recorded.of_prolog_eq (h : Recorded text d token.start) (htoken : token.Scanned text)
    (hnone : token.prolog? = none) (hprolog : d'.spans.prolog = d.spans.prolog)
    (hlt : token.start < stop) : Recorded text d' stop := by
  intro prolog
  rw [hprolog, h prolog]
  have hpos : 0 < stop := Nat.zero_lt_of_lt hlt
  by_cases hstart : token.start = 0
  · have hopens : ¬ Token.Opens text prolog := by
      rw [htoken.opens_iff hstart, hnone]
      exact Option.some_ne_none _ ∘ Eq.symm
    exact iff_of_false (fun h ↦ hopens h.2) fun h ↦ hopens h.2
  · exact and_congr_left fun _ ↦ iff_of_true (Nat.pos_of_ne_zero hstart) hpos

private theorem recorded_initial (tree : Tree) (text : List Char) :
    Recorded text (initial tree) 0 := by
  intro prolog
  exact iff_of_false (Option.some_ne_none _ ∘ Eq.symm) fun h ↦ Nat.lt_irrefl 0 h.1

/-- What is recorded is the declaration that the text starts with, throughout a replay. -/
theorem invariant_recorded (hlinked : tree.Linked) (howned : tree.Owned) (tokens : List Token)
    (text : List Char) : Invariant tokens text fun d offset ↦
      Tiled tree tokens text d offset ∧ Recorded text d offset :=
  have htiled := invariant_tiled hlinked howned tokens text
  { ready := fun h ↦ htiled.ready h.1
    bindsText := fun h hrun hends hbinds ↦ by
      refine ⟨htiled.bindsText h.1 hrun hends hbinds, ?_⟩
      have hlt := hrun.start_lt_stop
      obtain ⟨first, parts, hforms, ⟨rfl, hfirst, -⟩, -⟩ := hrun
      obtain ⟨id, kind, -, rfl⟩ := hbinds
      have hnone : first.prolog? = none := by
        rw [Token.prolog?, hforms first List.mem_cons_self]
      exact h.2.of_prolog_eq hfirst hnone rfl hlt
    takes := fun {d d' token} h hmem htoken htakes ↦ by
      refine ⟨htiled.takes h.1 hmem htoken htakes, ?_⟩
      have hlt : token.start < token.stop := htoken.start_lt_stop
      rcases prolog_of_takes htakes with ⟨hnone, hprolog⟩ | ⟨hstart, hprolog⟩
      · exact h.2.of_prolog_eq htoken hnone hprolog hlt
      · intro prolog
        rw [hprolog, htoken.opens_iff hstart]
        exact (and_iff_right (Nat.zero_lt_of_lt hlt)).symm }

end Binder

namespace Document

variable {source : Source} {mode : NamespaceMode} {tree : Tree} {body : List Char}
  {spans : TreeSpans} {doc : Document}

theorem prolog_eq_some_iff_of_bind (hlinked : tree.Linked) (howned : tree.Owned)
    (h : Document.bind tree body = .ok spans) (prolog : PrologSpans) :
    spans.prolog = some prolog ↔ Token.Opens body prolog := by
  obtain ⟨last, ⟨-, hrecorded⟩, -, -, whole, -, rfl⟩ := exists_last_of_bind
    (Binder.invariant_recorded hlinked howned _ body) (fun h ↦ h.1.root)
    ⟨Binder.tiled_initial tree _ body, Binder.recorded_initial tree body⟩ h
  refine (hrecorded prolog).trans (and_iff_right_of_imp ?_)
  rintro ⟨token, htoken, -, -⟩
  exact Nat.zero_lt_of_lt (Nat.lt_of_lt_of_le htoken.start_lt_stop htoken.solid.stop.le)

private theorem isSome_prolog_iff_of_bind (hlinked : tree.Linked) (howned : tree.Owned)
    (h : Document.bind tree body = .ok spans) :
    spans.prolog.isSome = true ↔ Source.startsDeclaration body = true := by
  have hprolog := prolog_eq_some_iff_of_bind hlinked howned h
  constructor
  · intro hsome
    obtain ⟨prolog, hsome⟩ := Option.isSome_iff_exists.1 hsome
    obtain ⟨token, htoken, hstart, htokenProlog⟩ := (hprolog prolog).1 hsome
    exact (htoken.isSome_prolog?_iff hstart).1 (Option.isSome_of_eq_some htokenProlog)
  · intro hstarts
    have hne : body ≠ [] := by
      rintro rfl
      cases hstarts
    obtain ⟨token, htoken, hstart⟩ := Token.exists_first (bind_eq_ok h).1 hne
    obtain ⟨prolog, htokenProlog⟩ :=
      Option.isSome_iff_exists.1 ((htoken.isSome_prolog?_iff hstart).2 hstarts)
    exact Option.isSome_of_eq_some ((hprolog prolog).2 ⟨token, htoken, hstart, htokenProlog⟩)

/-! ## Documents -/

private theorem isSome_prolog_iff_of_parse (h : parse source mode = .ok doc) :
    doc.prolog.isSome = true ↔ Source.startsDeclaration source.body = true := by
  obtain ⟨spans, hbuild, hbind, hlocate⟩ := exists_spans_of_parse h
  obtain ⟨hlinked, howned⟩ := Tree.linked_of_build hbuild
  rw [← isSome_prolog_iff_of_bind hlinked howned hbind]
  have hrel := rel_prolog hlocate
  generalize spans.prolog = prolog at hrel ⊢
  generalize doc.prolog = prolog' at hrel ⊢
  cases hrel with
  | none => exact Iff.rfl
  | some => exact Iff.rfl

theorem exists_locates_of_parse (h : parse source mode = .ok doc) {prolog : Prolog}
    (hprolog : doc.prolog = some prolog) :
    ∃ spans, Token.Opens source.body spans ∧ source.Locates spans prolog := by
  obtain ⟨spans, hbuild, hbind, hlocate⟩ := exists_spans_of_parse h
  obtain ⟨hlinked, howned⟩ := Tree.linked_of_build hbuild
  have hrel := rel_prolog hlocate
  have hopens := prolog_eq_some_iff_of_bind hlinked howned hbind
  rw [hprolog] at hrel
  generalize spans.prolog = recorded at hrel hopens
  cases hrel with
  | some hlocates => exact ⟨_, (hopens _).1 rfl, hlocates⟩

/-- Whether names are resolved has no say in what the declaration is. -/
theorem prolog_congr {mode' : NamespaceMode} {doc' : Document} (h : parse source mode = .ok doc)
    (h' : parse source mode' = .ok doc') : doc'.prolog = doc.prolog := by
  obtain ⟨spans, hbuild, hbind, hlocate⟩ := exists_spans_of_parse h
  obtain ⟨spans', hbuild', hbind', hlocate'⟩ := exists_spans_of_parse h'
  obtain ⟨hlinked, howned⟩ := Tree.linked_of_build hbuild
  obtain ⟨hlinked', howned'⟩ := Tree.linked_of_build hbuild'
  have hspans : spans'.prolog = spans.prolog := Option.ext fun prolog ↦
    (prolog_eq_some_iff_of_bind hlinked' howned' hbind' prolog).trans
      (prolog_eq_some_iff_of_bind hlinked howned hbind prolog).symm
  have hprolog := (locate_eq_ok hlocate).2.2
  have hprolog' := (locate_eq_ok hlocate').2.2
  rw [hspans, hprolog] at hprolog'
  exact (Except.ok.inj hprolog').symm

end Document

namespace Source

variable {source : Source}

/-- Before a declaration all is preamble. -/
theorem hasPreamble_iff (h : startsDeclaration source.body = true) :
    source.hasPreamble = true ↔ 0 < source.bodyOffset := by
  obtain ⟨rest, hbody⟩ := List.head?_eq_some_iff.1 (head?_of_startsDeclaration h)
  have hblank : (source.body.takeWhile (· != '<')).any (!Text.isBlank ·) = false := by
    rw [hbody]
    rfl
  rw [hasPreamble, hblank, Bool.or_false, bodyOffset, Nat.pos_iff_ne_zero, ne_eq,
    Text.byteSize_eq_zero_iff]
  simp

private theorem exists_coordinates_eq_positionAt_zero (uri : String) (charset : Charset)
    (text : List Char) :
    ∃ k ≤ text.length, Text.byteSize (text.take k) =
        markSize text + (ofChars uri charset text).bodyOffset ∧
      (ofChars uri charset text).positionAt 0 = Text.coordinates text k := by
  have htext := lead_append_body uri charset text
  have hlead := byteSize_lead uri charset text
  have hplace := positionAt_zero uri charset text
  rw [Text.after_eq_coordinates, htext] at hplace
  refine ⟨(ofChars uri charset text).lead.length, ?_, ?_, hplace⟩
  · rw [← congrArg List.length htext, List.length_append]
    exact Nat.le_add_right _ _
  · rw [← hlead, ← congrArg (List.take _) htext, List.take_left]

end Source

namespace XmlFile

variable {source : Source} {file : XmlFile}

theorem parse_eq_ok (h : XmlFile.parse source = .ok file) :
    file.source = source ∧ Document.parse source .aware = .ok file.document := by
  obtain ⟨doc, hparse, h⟩ := bind_eq_ok_iff.1 h
  cases h
  exact ⟨rfl, hparse⟩

end XmlFile

namespace Document

variable {uri : String} {charset : Charset} {text : List Char} {mode : NamespaceMode}
  {doc : Document}

/-- A document has a declaration exactly if the first markup of its content is one, which is what
searching finds. It starts there, and an issue is raised about it exactly if something comes before
it. -/
theorem prolog_of_parse (h : parse (.ofChars uri charset text) mode = .ok doc) :
    let source := Source.ofChars uri charset text
    (doc.prolog.isSome = true ↔ ∃ offset, Source.DeclaresAt source.content offset) ∧
    (∀ offset, Source.findDeclaration? source.content = some offset ↔
      Source.DeclaresAt source.content offset) ∧
    (∀ prolog offset, doc.prolog = some prolog → Source.DeclaresAt source.content offset →
      offset = source.bodyOffset ∧
        ∃ k ≤ text.length, Text.byteSize (text.take k) = Source.markSize text + offset ∧
          prolog.range.start = Text.coordinates text k) ∧
    ∀ file settings, XmlFile.parse source = .ok file →
      (doc.prolog = none → (PrologCheck.check.run file settings).1 = .found []) ∧
      ∀ prolog offset, doc.prolog = some prolog → Source.DeclaresAt source.content offset →
        (PrologCheck.check.run file settings).1 = .found (if 0 < offset then
          [Issue.located PrologCheck.rule prolog.range PrologCheck.message] else []) := by
  intro source
  have hdeclares : ∀ offset, Source.DeclaresAt source.content offset ↔
      Source.startsDeclaration source.body = true ∧ offset = source.bodyOffset :=
    fun _ ↦ Source.declaresAt_content_iff uri charset text
  refine ⟨?_, fun _ ↦ Source.findDeclaration?_eq_some_iff, ?_, ?_⟩
  · rw [isSome_prolog_iff_of_parse h]
    exact ⟨fun hstarts ↦ ⟨_, (hdeclares _).2 ⟨hstarts, rfl⟩⟩,
      fun ⟨offset, hoffset⟩ ↦ ((hdeclares offset).1 hoffset).1⟩
  · intro prolog offset hprolog hoffset
    obtain ⟨-, rfl⟩ := (hdeclares offset).1 hoffset
    obtain ⟨spans, hopens, hlocates⟩ := exists_locates_of_parse h hprolog
    rw [hlocates.range.start_eq, hopens.start_whole]
    exact ⟨rfl, Source.exists_coordinates_eq_positionAt_zero uri charset text⟩
  · intro file settings hfile
    obtain ⟨hsource, hparse⟩ := XmlFile.parse_eq_ok hfile
    have hprolog' := prolog_congr h hparse
    have hrun : (PrologCheck.check.run file settings).1 = .found (PrologCheck.issues file) := rfl
    rw [hrun, PrologCheck.issues, hprolog', hsource]
    constructor
    · intro hnone
      rw [hnone]
    · intro prolog offset hprolog hoffset
      obtain ⟨hstarts, rfl⟩ := (hdeclares offset).1 hoffset
      rw [hprolog]
      simp only [Source.hasPreamble_iff hstarts]

/-- A mark and a line that is no markup come before the declaration, and an instruction whose name
only starts alike comes after it. -/
theorem prolog_of_parse_preamble :
    let text := "\uFEFFé\n <?xml version='1.0'?><?xml-a b?><a/>".toList
    let source := Source.ofChars "" .utf8 text
    Source.findDeclaration? source.content = some 4 ∧
      ∃ doc prolog file, parse source .oblivious = .ok doc ∧ doc.prolog = some prolog ∧
        XmlFile.parse source = .ok file ∧
        (∃ k ≤ text.length, Text.byteSize (text.take k) = 3 + 4 ∧
          prolog.range.start = Text.coordinates text k) ∧
        (PrologCheck.check.run file .default).1 =
          .found [Issue.located PrologCheck.rule prolog.range PrologCheck.message] := by
  intro text source
  have hrun : (parse source .oblivious).toOption.any (fun doc ↦ doc.prolog.isSome) = true := by
    decide +kernel
  have hfile : (XmlFile.parse source).toOption.any (fun _ ↦ true) = true := by decide +kernel
  have hdeclares : Source.DeclaresAt source.content 4 :=
    ⟨"é\n ".toList, ' ', "version='1.0'?><?xml-a b?><a/>".toList, by decide +kernel, by decide,
      Or.inl rfl, rfl⟩
  obtain ⟨doc, hparse, hsome⟩ := exists_of_any hrun
  obtain ⟨prolog, hprolog⟩ := Option.isSome_iff_exists.1 hsome
  obtain ⟨file, hfile, -⟩ := exists_of_any hfile
  obtain ⟨-, hfind, hstart, hissues⟩ := prolog_of_parse hparse
  exact ⟨(hfind 4).2 hdeclares, doc, prolog, file, hparse, hprolog, hfile,
    (hstart prolog 4 hprolog hdeclares).2,
    (hissues file .default hfile).2 prolog 4 hprolog hdeclares⟩

end Document

end XmlInspect
