import XmlInspect.Proofs.DocumentOrder
import XmlInspect.Proofs.Lockstep
import XmlInspect.Proofs.Progress
import XmlInspect.Proofs.Scannable

/-!
# What parsing accepts

A document that can be built is parsed if its body is scannable, and not otherwise. Building and the
replay are followed through the body side by side. Where both are at the same place, the next piece
is plain exactly if there is a token that can be replayed, and both are at the same place after it.

The tree has all that a token can ask for: the next child is the node that was just built, with the
name and the attributes that stand in the tag, and a node that is closed gets no more children.
-/

namespace XmlInspect

open Markup

/-! ## What building leaves alone -/

namespace Tree.Builder

variable {b b' : Builder} {tree : Tree} {piece : Piece} {id : NodeId}

private theorem mem_path_parent (b : Builder) : b.parent ∈ b.path := by
  obtain ⟨outer, hpath⟩ := b.exists_path_eq
  rw [hpath]
  exact List.mem_cons_self

theorem Adds.size_eq {kind : NodeKind} (h : b.Adds kind b') : b'.tree.size = b.tree.size + 1 := by
  rw [size, h, ← size, size_append]

private theorem children_take (hsound : b.Sound) (h : b.take piece = .ok b')
    (hlt : id < b.tree.size) (hid : id ∉ b.path) :
    id < b'.tree.size ∧ id ∉ b'.path ∧ b'.tree.children id = b.tree.children id := by
  rcases take_cases hsound h with ⟨kind, added, hadds, hpath, -, -⟩ | ⟨htree, -, hpath⟩
  · have hne : b.parent ≠ id := fun he ↦ hid (he ▸ b.mem_path_parent)
    have hchildren : b'.tree.children id = b.tree.children id := by
      rw [hadds.children_eq hsound, if_neg hne]
    refine ⟨hadds.size_eq ▸ Nat.lt_succ_of_lt hlt, ?_, hchildren⟩
    rcases hpath with hpath | hpath
    · rwa [hpath]
    · rw [hpath, List.mem_cons, not_or]
      exact ⟨Nat.ne_of_lt hlt, hid⟩
  · rw [htree]
    refine ⟨hlt, ?_, rfl⟩
    rcases hpath with hpath | ⟨p, hpath⟩
    · rwa [hpath]
    · rw [hpath] at hid
      exact fun hmem ↦ hid (List.mem_cons_of_mem p hmem)

private theorem children_foldlM {pieces : List Piece} (hsound : b.Sound)
    (h : pieces.foldlM Builder.take b = .ok b') (hlt : id < b.tree.size) (hid : id ∉ b.path) :
    b'.tree.children id = b.tree.children id := by
  refine (foldlM_induction (P := fun c ↦ c.Sound ∧ id < c.tree.size ∧ id ∉ c.path ∧
    c.tree.children id = b.tree.children id) (fun c piece c' hc htake ↦ ?_)
      ⟨hsound, hlt, hid, rfl⟩ h).2.2.2
  obtain ⟨hsound, hlt, hid, hsame⟩ := hc
  obtain ⟨hlt', hid', hchildren⟩ := children_take hsound htake hlt hid
  exact ⟨(hsound.take htake).1, hlt', hid', hchildren.trans hsame⟩

theorem children_of_builds {position : Nat} {text : List Char} (hsound : b.Sound)
    (h : b.Builds position text tree) (hlt : id < b.tree.size) (hid : id ∉ b.path) :
    tree.children id = b.tree.children id := by
  obtain ⟨pieces, last, -, hrun, -, -, rfl⟩ := h
  exact children_foldlM hsound hrun hlt hid

theorem one_lt_size_take (hsound : b.Sound) (h : b.take piece = .ok b')
    (hseen : b.rootSeen = true → 1 < b.tree.size) (hseen' : b'.rootSeen = true) :
    1 < b'.tree.size := by
  rcases take_cases hsound h with ⟨kind, added, hadds, -, -, -⟩ | ⟨htree, heq, -⟩
  · rw [hadds.size_eq]
    exact Nat.succ_lt_succ hsound.linked.root_lt_size
  · rw [htree]
    exact hseen (heq ▸ hseen')

/-- The names of what is open come from plain tags. -/
theorem isName_take (h : b.take piece = .ok b') (hplain : piece.IsPlain)
    (hnames : ∀ frame ∈ b.frames, Text.IsName frame.name) :
    ∀ frame ∈ b'.frames, Text.IsName frame.name := by
  obtain ⟨start, raw, form⟩ := piece
  cases form with
  | text =>
    obtain ⟨text, -, rfl⟩ := takeText_eq_ok h
    exact hnames
  | openTag content selfClosing =>
    obtain ⟨scope, name, raws, attrs, -, -, -, rfl⟩ := takeOpenTag_eq_ok h
    cases selfClosing with
    | true => exact hnames
    | false => exact List.forall_mem_cons.2 ⟨hplain.1, hnames⟩
  | closeTag name =>
    obtain ⟨frame, frames, hframes, -, rfl⟩ := takeCloseTag_eq_ok (reportAt_eq_ok_iff.1 h)
    exact fun other hother ↦ hnames other (hframes ▸ List.mem_cons_of_mem frame hother)
  | comment content =>
    rw [takeComment_eq_ok (reportAt_eq_ok_iff.1 h)]
    exact hnames
  | cdata content =>
    rw [takeCdata_eq_ok (reportAt_eq_ok_iff.1 h)]
    exact hnames
  | doctype content =>
    obtain ⟨-, -, rfl⟩ := takeDoctype_eq_ok (reportAt_eq_ok_iff.1 h)
    exact hnames
  | declaration =>
    rw [take_eq_ok_of_isInstruction h (Or.inl rfl)]
    exact hnames
  | instruction =>
    rw [take_eq_ok_of_isInstruction h (Or.inr rfl)]
    exact hnames

/-- Building refuses a declaration anywhere but at the start. -/
theorem start_eq_zero_of_declaration {start : Nat} {raw : List Char}
    (h : b.take ⟨start, raw, .declaration⟩ = .ok b') : start = 0 := by
  rw [take] at h
  dsimp only at h
  split at h
  · assumption
  · cases h

end Tree.Builder

/-! ## Plain markup goes through -/

namespace Binder

open XmlInspect.Tree (Builder)

variable {tree : Tree} {body : List Char} {entities : List Entity} {b b' : Builder}
  {d d' : Binder} {position offset : Nat} {text rest raw : List Char}

/-- There is a token of markup, after which `rest` is left, and it can be replayed. -/
def Proceeds (d : Binder) (offset : Nat) (text rest : List Char) : Prop :=
  ∃ form next, Cursor.markup offset text = .ok (form, next) ∧ next.rest = rest ∧
    ∀ raw, Succeeds (d.take ⟨offset, raw, form⟩)

namespace Synced

theorem meets {kind : NodeKind} {expected : Expected} (h : Synced tree body entities b d)
    (hfilled : Filled tree d offset) (hsound : b.Sound) (hadds : b.Adds kind b')
    (hextends : b'.tree.Extends tree) (haccepts : expected.accepts kind = true) :
    d.Meets expected b.tree.size kind := by
  obtain ⟨hnext, hkind⟩ := h.next?_eq hfilled hsound hadds hextends
  exact ⟨hnext, hkind, haccepts⟩

private theorem proceeds_openTag {start stop : Nat} {content : List Char} {selfClosing : Bool}
    (h : Synced tree body entities b d) (hfilled : Filled tree d offset) (hready : d.Ready)
    (hpending : d.pending = none) (hsound : b.Sound)
    (htake : b.takeOpenTag start stop content selfClosing = .ok b')
    (hextends : b'.tree.Extends tree) (hcuts : (Form.openTag content selfClosing).Cuts text rest)
    (hplain : Piece.IsPlain ⟨position, raw, .openTag content selfClosing⟩) :
    d.Proceeds offset text rest := by
  obtain ⟨htext, hhead⟩ := hcuts
  obtain ⟨hname, hkeys⟩ := hplain
  obtain ⟨qname, ids, raws, hwritten, hread, hcarries, hadds, -, hkind, -, -⟩ :=
    h.exists_element hfilled hsound htake hextends
  rw [hread] at hkeys
  obtain ⟨attrs, stop, hopen, hspells⟩ :=
    Cursor.exists_openTag hname hread hkeys offset selfClosing rest
  have hnames : List.Forall₂ (Names d.tree) (d.tree.attributesOf b.tree.size) attrs := by
    rw [Tree.attributesOf, hkind, hfilled.tree_eq]
    exact (forall₂_comp hcarries hspells Tree.Carries.writes).imp fun _ _ h ↦ h.names
  refine ⟨_, _, (Cursor.markup_eq_openTag offset hhead).trans (htext ▸ hopen), rfl, fun raw ↦ ?_⟩
  rw [take_of_pending hpending]
  refine succeeds_bindOpenTag hready.fresh hready.freshAttrs
    (h.meets hfilled hsound hadds hextends rfl) ?_ hnames _ selfClosing
  rw [Tree.name?, hkind]
  exact hwritten.symm

/-- When an element is closed, the replay is in it and has found all its children. -/
theorem visited_of_closed {frame : Tree.Frame} (h : Synced tree body entities b d)
    (hfilled : Filled tree d offset) (hlinked : tree.Linked) (hmem : frame ∈ b.frames)
    (hpath : b.path = frame.node :: b'.path) (htree : b'.tree = b.tree) (hsound : b.Sound)
    (hsound' : b'.Sound) (hbuilds : b'.Builds position rest tree) :
    d.current = ⟨frame.node, (tree.children frame.node).length⟩ ∧
      ∃ visit outer, d.outer = visit :: outer := by
  have hvisits := h.visits
  rw [hpath] at hvisits
  obtain ⟨hcurrent, houter⟩ := List.cons.inj hvisits
  have hclosed : frame.node ∉ b'.path := by
    intro hmem
    have hvisit : (⟨frame.node, (b.tree.children frame.node).length⟩ : Visit) ∈ d.outer := by
      rw [houter]
      exact List.mem_map_of_mem hmem
    exact hfilled.ne_current hlinked hvisit (by rw [hcurrent])
  have hlt : frame.node < b'.tree.size := by
    rw [htree]
    exact Builder.lt_size_of_isElement (hsound.isElement frame hmem)
  constructor
  · rw [hcurrent, Builder.children_of_builds hsound' hbuilds hlt hclosed, htree]
  · obtain ⟨ids, hids⟩ := b'.exists_path_eq
    rw [houter, hids]
    exact ⟨_, _, rfl⟩

private theorem proceeds_closeTag {name : List Char} (h : Synced tree body entities b d)
    (hfilled : Filled tree d offset) (hlinked : tree.Linked) (hpending : d.pending = none)
    (hsound : b.Sound) (htake : b.takeCloseTag name = .ok b') (hsound' : b'.Sound)
    (hbuilds : b'.Builds position rest tree) (hcuts : (Form.closeTag name).Cuts text rest)
    (hnames : ∀ frame ∈ b.frames, Text.IsName frame.name) : d.Proceeds offset text rest := by
  obtain ⟨content, rfl, rfl⟩ := hcuts
  obtain ⟨frame, frames, hframes, hname, hb'⟩ := Builder.takeCloseTag_eq_ok htake
  have hmem : frame ∈ b.frames := by
    rw [hframes]
    exact List.mem_cons_self
  have hpath : b.path = frame.node :: b'.path := by
    rw [hb', Builder.path, hframes]
    rfl
  obtain ⟨hcurrent, visit, outer, houter⟩ :=
    h.visited_of_closed hfilled hlinked hmem hpath (by rw [hb']) hsound hsound' hbuilds
  obtain ⟨stop, hclose⟩ := Cursor.exists_closeTag (hname ▸ hnames frame hmem) offset rest
  refine ⟨_, _, hclose, rfl, fun raw ↦ ?_⟩
  rw [take_of_pending hpending]
  refine succeeds_bindCloseTag houter (hfilled.isOpen_current hlinked (by simp [houter])) ?_ ?_ _
  · rw [hfilled.tree_eq, hcurrent]
  · obtain ⟨qname, attrs, hkind, hwritten⟩ := h.names frame hmem
    rw [hfilled.tree_eq, hcurrent, Tree.name?, hkind, ← hname, ← hwritten]
    exact String.ofList_toList

private theorem proceeds_delimited {kind : NodeKind} {expected : Expected} {form : TokenForm}
    {word : String} {content : List Char} {cursor : Cursor} (h : Synced tree body entities b d)
    (hfilled : Filled tree d offset) (hready : d.Ready) (hpending : d.pending = none)
    (hsound : b.Sound) (hadds : b.Adds kind b') (hextends : b'.tree.Extends tree)
    (haccepts : expected.accepts kind = true)
    (hform : form = .comment ∧ expected = .comment ∨ form = .cdata ∧ expected = .cdata)
    (hmarkup : Cursor.markup offset text = (cursor.past word).map (form, ·))
    (hcut : Text.cutAt word.toList cursor.rest = some (content, rest)) :
    d.Proceeds offset text rest := by
  obtain ⟨next, hpast, hrest⟩ := Cursor.past_eq_of_cutAt hcut
  have hmeets := h.meets hfilled hsound hadds hextends haccepts
  rw [hpast] at hmarkup
  refine ⟨form, next, hmarkup, hrest, fun raw ↦ ?_⟩
  rw [take_of_pending hpending]
  rcases hform with ⟨rfl, rfl⟩ | ⟨rfl, rfl⟩
  · exact succeeds_bindDelimited hready.fresh hmeets _
  · exact succeeds_bindDelimited hready.fresh hmeets _

private theorem proceeds_doctype {content : List Char} (h : Synced tree body entities b d)
    (hfilled : Filled tree d offset) (hready : d.Ready) (hpending : d.pending = none)
    (hcontained : tree.Contained entities) (hsound : b.Sound)
    (htake : b.takeDoctype content = .ok b') (hextends : b'.tree.Extends tree)
    (hcuts : (Form.doctype content).Cuts text rest) (hraw : '<' :: text = raw ++ rest)
    (hplain : Piece.IsPlain ⟨position, raw, .doctype content⟩) : d.Proceeds offset text rest := by
  have hadds := Builder.adds_of_takeDoctype hsound htake
  have hmeets : d.Meets .doctype b.tree.size _ := h.meets hfilled hsound hadds hextends rfl
  have hkind := hmeets.2.1
  rw [hfilled.tree_eq] at hkind
  have hself := (hcontained hkind).1
  rw [String.toList_ofList (l := content)] at hself
  obtain ⟨more, rfl⟩ := hplain
  have htext : text = "!DOCTYPE".toList ++ (more ++ rest) := by
    rw [List.append_assoc] at hraw
    exact (List.cons.inj hraw).2
  obtain ⟨blanks, hblanks, hafter⟩ := Cursor.exists_blanks_of_cuts hcuts htext
  obtain ⟨next, hend, hrest⟩ :=
    Cursor.exists_doctypeEnd_of_isSelfContained hself hblanks rest offset (offset + 9)
  have hmarkup : Cursor.markup offset ("!DOCTYPE".toList ++ (more ++ rest)) =
      (Cursor.doctypeEnd offset 0 none ⟨offset + 9, more ++ rest⟩).map (.doctype, ·) := rfl
  rw [hafter, hend] at hmarkup
  refine ⟨.doctype, next, htext ▸ hafter ▸ hmarkup, hrest, fun raw ↦ ?_⟩
  rw [take_of_pending hpending]
  exact succeeds_bindDoctype hready.fresh hmeets _

end Synced

/-- An instruction that looks like a declaration has to be one, and has to come first. -/
theorem proceeds_instruction (hpending : d.pending = none) (hstart : offset = 0 ↔ position = 0)
    (hprolog : offset = 0 → d.spans.prolog = none) (hcuts : Form.instruction.Cuts text rest)
    (hraw : '<' :: text = raw ++ rest)
    (hfirst : Source.startsDeclaration raw = true → position = 0)
    (hdeclared : offset = 0 → Text.IsDeclared ('<' :: text)) : d.Proceeds offset text rest := by
  obtain ⟨content, after, rfl, hcut⟩ := hcuts
  rw [Cursor.startsDeclaration_raw hraw hcut] at hfirst
  by_cases hstarts : Cursor.startsDeclaration after = true
  · have hzero := hstart.2 (hfirst hstarts)
    obtain ⟨attrs, hattrs⟩ :=
      (Cursor.exists_pseudoAttributes_iff hcut hstarts offset).2 (hdeclared hzero)
    refine ⟨.declaration attrs, ⟨offset + 2 + Text.byteSize content + 2, rest⟩, ?_, rfl,
      fun raw ↦ ?_⟩
    · rw [Cursor.markup_question, Cursor.instruction_eq_ok_iff]
      refine ⟨content, hcut, rfl, ?_⟩
      rw [if_pos hstarts]
      exact ⟨attrs, hattrs, rfl⟩
    · rw [take_of_pending hpending]
      exact succeeds_bindDeclaration hzero (hprolog hzero) attrs
  · refine ⟨.instruction, ⟨offset + 2 + Text.byteSize content + 2, rest⟩, ?_, rfl, fun raw ↦ ?_⟩
    · rw [Cursor.markup_question, Cursor.instruction_eq_ok_iff]
      refine ⟨content, hcut, rfl, ?_⟩
      rw [if_neg hstarts]
    · rw [take_of_pending hpending]
      exact .ok d

/-! ## What goes through is plain -/

private theorem isDeclared_of_markup {form : TokenForm} {next : Cursor}
    (h : Cursor.markup offset text = .ok (form, next)) : Text.IsDeclared ('<' :: text) := by
  intro hstarts
  obtain ⟨after, rfl⟩ : ∃ after, text = '?' :: after := by
    unfold Source.startsDeclaration at hstarts
    split at hstarts
    · rename_i hstrip
      exact ⟨_, (List.cons.inj (Text.stripStart?_eq_some_iff.1 hstrip)).2⟩
    · cases hstarts
  have hstarts' : Cursor.startsDeclaration after = true := hstarts
  rw [Cursor.markup_question] at h
  obtain ⟨content, hcut, -, hread⟩ := Cursor.instruction_eq_ok_iff.1 h
  rw [if_pos hstarts'] at hread
  obtain ⟨attrs, hattrs, -⟩ := hread
  exact (Cursor.exists_pseudoAttributes_iff hcut hstarts' offset).1 ⟨attrs, hattrs⟩ hstarts

theorem isDeclared_of_ne {c : Char} (hc : c ≠ '<') : Text.IsDeclared (c :: text) := by
  intro hstarts
  exact absurd (Option.some.inj (Source.head?_of_startsDeclaration hstarts)) hc

private theorem Synced.isPlain {token : Token} {form : Form} {next : Cursor}
    (h : Synced tree body entities b d) (hfilled : Filled tree d token.start) (hsound : b.Sound)
    (hstart : token.start = 0 ↔ position = 0) (hcut : cutMarkup text = .ok (form, rest))
    (hraw : '<' :: text = raw ++ rest) (htake : b.take ⟨position, raw, form⟩ = .ok b')
    (hextends : b'.tree.Extends tree)
    (hmarkup : Cursor.markup token.start text = .ok (token.form, next))
    (htakes : d.Takes token d') : Piece.IsPlain ⟨position, raw, form⟩ := by
  have hcuts := cuts_of_cutMarkup hcut
  cases form with
  | text | closeTag _ | comment _ | cdata _ | declaration => trivial
  | openTag content selfClosing =>
    rw [Cursor.markup_eq_openTag _ hcuts.2] at hmarkup
    obtain ⟨name, lexemes, selfClosing', cursor, hform, hname, -⟩ := Cursor.openTag_eq_ok hmarkup
    obtain ⟨id, ids, htagged⟩ := exists_tagged hform htakes
    obtain ⟨heq, hkeys⟩ :=
      h.tag_names hfilled hsound htake hextends (hform ▸ hmarkup) htagged
    exact ⟨heq ▸ (Cursor.name_eq_ok hname).2.2, hkeys⟩
  | doctype content =>
    obtain ⟨-, blanks, -, htext, -⟩ := h.exists_blanks_of_doctype hfilled hsound hcuts
      (Builder.reportAt_eq_ok_iff.1 htake) hextends hmarkup htakes
    refine ⟨blanks ++ (content ++ ['>']), List.append_cancel_right (Eq.trans ?_ hraw)⟩
    rw [htext]
    simp
  | instruction =>
    intro hstarts
    obtain ⟨content, after, rfl, hcontent⟩ := hcuts
    rw [Cursor.startsDeclaration_raw hraw hcontent] at hstarts
    rw [Cursor.markup_question] at hmarkup
    obtain ⟨_, -, -, hread⟩ := Cursor.instruction_eq_ok_iff.1 hmarkup
    rw [if_pos hstarts] at hread
    obtain ⟨attrs, -, hform⟩ := hread
    rw [Takes, hform] at htakes
    exact hstart.1 htakes.1

/-! ## Side by side -/

/-- Both readings are at the same place of the body, but for a mark that building has skipped, and
all that stands before is plain. -/
structure InStep (tree : Tree) (body : List Char) (entities : List Entity) (mark : List Char)
    (b : Builder) (d : Binder) (position offset : Nat) (rest : List Char) : Prop where
  pending : d.pending = none
  filled : Filled tree d offset
  synced : Synced tree body entities b d
  sound : b.Sound
  builds : b.Builds position rest tree
  isIn : Cursor.IsIn ⟨offset, mark ++ rest⟩ body
  isMark : mark = [] ∨
    (body.head? = some Text.byteOrderMark ∧ mark = [Text.byteOrderMark]) ∧ b.tree.size = 1
  isName : ∀ frame ∈ b.frames, Text.IsName frame.name
  one_lt_size : b.rootSeen = true → 1 < b.tree.size
  start : offset = 0 ↔ position = 0
  prolog : offset = 0 → d.spans.prolog = none

namespace InStep

variable {mark : List Char} {c : Char}

theorem run (h : InStep tree body entities mark b d position offset (c :: text)) (hc : c ≠ '<')
    (hlinked : tree.Linked) (howned : tree.Owned) :
    ∃ raw rest b' d', c :: text = raw ++ rest ∧ 0 < Text.byteSize raw ∧
      InStep tree body entities [] b' d' (position + Text.byteSize raw)
        (offset + Text.byteSize (mark ++ raw)) rest ∧
      ((∀ piece ∈ (Piece.cutAll position (c :: text)).1, piece.IsPlain) ↔
        ∀ piece ∈ (Piece.cutAll (position + Text.byteSize raw) rest).1, piece.IsPlain) ∧
      (d.Completes offset (mark ++ c :: text) ↔
        d'.Completes (offset + Text.byteSize (mark ++ raw)) rest) := by
  obtain ⟨raw, rest, content, b', hcut, hraw, hfree, hrest, hcontent, rfl, hsound', hextends,
    hbuilds'⟩ := h.builds.of_text h.sound hc
  have hne : raw ≠ [] := by
    rintro rfl
    obtain rfl : c :: text = rest := hraw
    exact hc (hrest c rfl)
  -- To the scan, a mark and the text behind it are one run.
  obtain ⟨hreadable, hfree'⟩ := isReadable_mark_append (h.isMark.imp_right fun h ↦ h.1.2)
    ⟨_, _, content, hcontent⟩ hfree
  have hsize : 0 < Text.byteSize raw :=
    Nat.pos_of_ne_zero (mt Text.byteSize_eq_zero_iff.1 hne)
  have hsize' : Text.byteSize raw ≤ Text.byteSize (mark ++ raw) := by
    rw [Text.byteSize_append]
    exact Nat.le_add_left _ _
  have hmeets : d.Meets .text b.tree.size _ :=
    h.synced.meets h.filled h.sound (Builder.adds_appendLeaf b _) hextends rfl
  obtain ⟨d', hbinds, hpending', hiff⟩ := completes_text hreadable (by simp [hne]) hfree' hrest
    h.pending (h.filled.ready hlinked howned).fresh hmeets offset
  have hmoves : Cursor.Moves ⟨offset, mark ++ raw ++ rest⟩ (mark ++ raw)
      ⟨offset + Text.byteSize (mark ++ raw), rest⟩ := ⟨rfl, rfl⟩
  have hin := h.isIn
  rw [hraw, ← List.append_assoc] at hin
  rw [List.append_assoc, ← hraw] at hiff
  refine ⟨raw, rest, b.appendLeaf (.text (String.ofList content)), d', hraw, hsize, ?_, ?_, hiff⟩
  · exact {
      pending := hpending'
      filled := (h.filled.mono (Nat.le_add_right _ _)).binds hlinked howned (by simp)
        (Ranges.has_whole _) hbinds
      synced := h.synced.text h.filled hlinked howned h.sound hextends (hmoves.stands hin) h.isMark
        hcontent hbinds
      sound := hsound'
      builds := hbuilds'
      isIn := hmoves.isIn hin
      isMark := Or.inl rfl
      isName := h.isName
      one_lt_size := fun hseen ↦ by
        rw [(Builder.adds_appendLeaf b _).size_eq]
        exact Nat.lt_succ_of_lt (h.one_lt_size hseen)
      start := by omega
      prolog := fun hzero ↦ by omega }
  · have hplain : Piece.IsPlain ⟨position, raw, .text⟩ := trivial
    rw [Piece.cutAll_cons hcut hraw, List.forall_mem_cons, and_iff_right hplain]

theorem takes {form : TokenForm} {next : Cursor}
    (h : InStep tree body entities [] b d position offset ('<' :: text)) (hlinked : tree.Linked)
    (howned : tree.Owned) (hcontained : tree.Contained entities)
    (hmarkup : Cursor.markup offset text = .ok (form, next))
    (hraw : '<' :: text = raw ++ next.rest) (htake : d.take ⟨offset, raw, form⟩ = .ok d') :
    ∃ piece b', Piece.cutFirst '<' text = .ok (piece, next.rest) ∧
      Piece.IsPlain ⟨position, raw, piece⟩ ∧ 0 < Text.byteSize raw ∧
      InStep tree body entities [] b' d' (position + Text.byteSize raw)
        (offset + Text.byteSize raw) next.rest := by
  have htoken : Token.Scanned body ⟨offset, raw, form⟩ :=
    ⟨'<', text, next, h.isIn, (if_pos rfl).trans hmarkup, hraw⟩
  have hlt : offset < offset + Text.byteSize raw := htoken.start_lt_stop
  have htakes := (yields_take h.pending (h.filled.ready hlinked howned)
    (Cursor.form_ne_text_of_markup hmarkup)).elim htake
  obtain ⟨piece, rest, raw', b', hfirst, hraw', htake', hbuilds'⟩ := h.builds.of_cons
  have hsound' := (h.sound.take htake').1
  have hextends := hbuilds'.extends_tree hsound'
  have hcut : cutMarkup text = .ok (piece, rest) := hfirst
  obtain ⟨rfl, hsynced'⟩ := h.synced.takes h.filled hlinked howned hcontained h.sound hcut htake'
    hextends htoken hmarkup hraw htakes
  obtain rfl : raw' = raw := List.append_cancel_right (hraw'.symm.trans hraw)
  have hplain := h.synced.isPlain h.filled h.sound h.start hcut hraw htake' hextends hmarkup htakes
  exact ⟨piece, b', hfirst, hplain, by omega, {
    pending := (pending_of_takes htakes).trans h.pending
    filled := (invariant_filled hlinked howned [_] body).takes h.filled (List.mem_singleton.2 rfl)
      htoken htakes
    synced := hsynced'
    sound := hsound'
    builds := hbuilds'
    isIn := Cursor.Moves.isIn ⟨hraw, rfl⟩ h.isIn
    isMark := Or.inl rfl
    isName := Builder.isName_take htake' hplain h.isName
    one_lt_size := Builder.one_lt_size_take h.sound htake' h.one_lt_size
    start := by omega
    prolog := fun hzero ↦ by omega }⟩

theorem proceeds {form : Form}
    (h : InStep tree body entities [] b d position offset ('<' :: text)) (hlinked : tree.Linked)
    (howned : tree.Owned) (hcontained : tree.Contained entities)
    (hfirst : Piece.cutFirst '<' text = .ok (form, rest)) (hraw : '<' :: text = raw ++ rest)
    (hplain : Piece.IsPlain ⟨position, raw, form⟩)
    (hdeclared : offset = 0 → Text.IsDeclared ('<' :: text)) : d.Proceeds offset text rest := by
  obtain ⟨form', rest', raw', b', hfirst', hraw', htake, hbuilds⟩ := h.builds.of_cons
  cases hfirst.symm.trans hfirst'
  obtain rfl : raw' = raw := List.append_cancel_right (hraw'.symm.trans hraw)
  have hsound' := (h.sound.take htake).1
  have hextends := hbuilds.extends_tree hsound'
  have hready := h.filled.ready hlinked howned
  have hcuts : form.Cuts text rest := cuts_of_cutMarkup hfirst
  -- Comments and sections always go through; the others do because they are plain.
  cases form with
  | text => exact hcuts.elim
  | openTag content selfClosing =>
    exact h.synced.proceeds_openTag h.filled hready h.pending h.sound htake hextends hcuts hplain
  | closeTag name =>
    exact h.synced.proceeds_closeTag h.filled hlinked h.pending h.sound
      (Builder.reportAt_eq_ok_iff.1 htake) hsound' hbuilds hcuts h.isName
  | comment content =>
    obtain ⟨after, rfl, hcut⟩ := hcuts
    obtain rfl := Builder.takeComment_eq_ok (Builder.reportAt_eq_ok_iff.1 htake)
    exact h.synced.proceeds_delimited h.filled hready h.pending h.sound
      (Builder.adds_appendLeaf b _) hextends rfl (Or.inl ⟨rfl, rfl⟩) rfl hcut
  | cdata content =>
    obtain ⟨after, rfl, hcut⟩ := hcuts
    obtain rfl := Builder.takeCdata_eq_ok (Builder.reportAt_eq_ok_iff.1 htake)
    exact h.synced.proceeds_delimited h.filled hready h.pending h.sound
      (Builder.adds_appendLeaf b _) hextends rfl (Or.inr ⟨rfl, rfl⟩) rfl hcut
  | doctype content =>
    exact h.synced.proceeds_doctype h.filled hready h.pending hcontained h.sound
      (Builder.reportAt_eq_ok_iff.1 htake) hextends hcuts hraw hplain
  | declaration =>
    refine proceeds_instruction h.pending h.start h.prolog hcuts hraw (fun _ ↦ ?_) hdeclared
    exact Builder.start_eq_zero_of_declaration htake
  | instruction =>
    exact proceeds_instruction h.pending h.start h.prolog hcuts hraw hplain hdeclared

theorem succeeds_finish (h : InStep tree body entities [] b d position offset [])
    (hlinked : tree.Linked) : Succeeds d.finish := by
  obtain ⟨hframes, hseen, rfl⟩ := h.builds.of_nil
  have hvisits := h.synced.visits
  rw [Builder.path, hframes] at hvisits
  obtain ⟨hcurrent, houter⟩ := List.cons.inj hvisits
  have htree := h.filled.tree_eq
  -- The first node after the document is a child of it.
  have hne : b.tree.children Tree.root ≠ [] := by
    obtain ⟨p, i, hchild⟩ := hlinked.exists_parent (h.one_lt_size hseen) (by decide)
    obtain rfl : p = Tree.root := Nat.lt_one_iff.1 (hlinked.child hchild).1
    intro hnil
    rw [hnil] at hchild
    cases hchild
  refine Binder.succeeds_finish h.pending houter ?_ h.filled.root (htree ▸ hne) ?_
  · rw [htree, hcurrent]
  · intro id hid
    rw [htree] at hid
    obtain ⟨i, hi⟩ := List.getElem?_of_mem hid
    obtain ⟨hlt, hsize, -⟩ := hlinked.child hi
    obtain ⟨kind, hkind⟩ : ∃ kind, b.tree.kind? id = some kind := by
      cases hkind : b.tree.kind? id with
      | none => exact absurd hsize (Nat.not_lt.2 (Tree.kind?_eq_none_iff.1 hkind))
      | some kind => exact ⟨kind, rfl⟩
    have hpath : id ∉ d.path := by
      rw [Binder.path, hvisits]
      simpa [visitsAt] using Nat.ne_of_gt hlt
    have hfound : d.spans.ranges id ≠ .empty := by
      refine (h.filled.found d.current List.mem_cons_self (by rw [hcurrent]; exact hi)).2 ?_
      rw [hcurrent]
      exact (List.getElem?_eq_some_iff.1 hi).1
    have hhas := (h.filled.has hkind hpath).resolve_left hfound
    exact Option.isSome_iff_exists.1 ((hhas .whole).2 (by cases kind <;> simp [NodeKind.slots]))

/-- From where both readings are at the same place, the replay gets to the end exactly if all that
follows is plain. -/
theorem completes_iff (h : InStep tree body entities [] b d position offset rest)
    (hlinked : tree.Linked) (howned : tree.Owned) (hcontained : tree.Contained entities) :
    d.Completes offset rest ↔ (∀ piece ∈ (Piece.cutAll position rest).1, piece.IsPlain) ∧
      (offset = 0 → Text.IsDeclared rest) := by
  -- On the size of what is left, of which every piece takes something.
  induction hn : Text.byteSize rest using Nat.strong_induction_on generalizing
    b d position offset rest with
  | _ n ih =>
    cases rest with
    | nil =>
      rw [completes_nil, Piece.cutAll]
      exact iff_of_true (h.succeeds_finish hlinked) ⟨by simp, fun _ hstarts ↦ by cases hstarts⟩
    | cons c text =>
      by_cases hc : c = '<'
      · subst hc
        obtain ⟨form, rest, raw, -, hfirst, hraw, -, -⟩ := h.builds.of_cons
        have hsplit := congrArg Text.byteSize hraw
        rw [Text.byteSize_append, hn] at hsplit
        rw [Piece.cutAll_cons hfirst hraw, List.forall_mem_cons]
        constructor
        · intro hcompletes
          obtain ⟨token, next, raw', d', hmarkup, hraw', htake, hrest⟩ :=
            completes_markup.1 hcompletes
          obtain ⟨form', b', hfirst', hplain, hsize, hstep⟩ :=
            h.takes hlinked howned hcontained hmarkup hraw' htake
          cases hfirst.symm.trans hfirst'
          obtain rfl : raw' = raw := List.append_cancel_right (hraw'.symm.trans hraw)
          have hiff := ih _ (by omega) hstep rfl
          exact ⟨⟨hplain, (hiff.1 hrest).1⟩, fun _ ↦ isDeclared_of_markup hmarkup⟩
        · rintro ⟨⟨hplain, hrest⟩, hdeclared⟩
          obtain ⟨token, next, hmarkup, rfl, htakes⟩ :=
            h.proceeds hlinked howned hcontained hfirst hraw hplain hdeclared
          obtain ⟨d', htake⟩ := htakes raw
          obtain ⟨form', b', hfirst', -, hsize, hstep⟩ :=
            h.takes hlinked howned hcontained hmarkup hraw htake
          have hiff := ih _ (by omega) hstep rfl
          exact completes_markup.2 ⟨token, next, raw, d', hmarkup, hraw, htake,
            hiff.2 ⟨hrest, fun hzero ↦ by omega⟩⟩
      · obtain ⟨raw, rest, b', d', hraw, hsize, hstep, hplain, hcompletes⟩ :=
          h.run hc hlinked howned
        have hsplit := congrArg Text.byteSize hraw
        rw [Text.byteSize_append, hn] at hsplit
        have hiff := ih _ (by omega) hstep rfl
        rw [List.nil_append] at hcompletes
        rw [hcompletes, hplain, hiff]
        refine and_congr_right fun _ ↦ iff_of_true (fun hzero ↦ ?_) fun _ ↦ isDeclared_of_ne hc
        rw [List.nil_append] at hzero
        omega

end InStep

/-! ## The whole body -/

variable {mode : NamespaceMode} {mark : List Char}

theorem inStep_initial (hbuilds : (Builder.initial mode).Builds 0 rest tree)
    (hbody : body = mark ++ rest)
    (hmark : mark = [] ∨ body.head? = some Text.byteOrderMark ∧ mark = [Text.byteOrderMark])
    (entities : List Entity) :
    InStep tree body entities mark (Builder.initial mode) (initial tree) 0 0 rest where
  pending := rfl
  filled := filled_initial tree
  synced := synced_initial tree body entities mode
  sound := Builder.sound_initial mode
  builds := hbuilds
  isIn := ⟨[], hbody, rfl⟩
  isMark := hmark.imp_right fun h ↦ ⟨h, rfl⟩
  isName _ hframe := by cases hframe
  one_lt_size hseen := by cases hseen
  start := Iff.rfl
  prolog _ := rfl

/-- If markup follows a mark, the replay is ahead from the first run of text on. -/
theorem invariant_ahead (hlinked : tree.Linked) (howned : tree.Owned)
    (hbuilds : (Builder.initial mode).Builds 0 ('<' :: text) tree)
    (hbody : body = Text.byteOrderMark :: '<' :: text) (tokens : List Token) :
    Invariant tokens body fun d offset ↦ Filled tree d offset ∧
      (offset = 0 ∧ d.current = ⟨Tree.root, 0⟩ ∨ IsAhead tree body d offset) :=
  have hfilled := invariant_filled hlinked howned tokens body
  have hin : Cursor.IsIn ⟨0, Text.byteOrderMark :: '<' :: text⟩ body := ⟨[], hbody, rfl⟩
  { ready := fun h ↦ hfilled.ready h.1
    bindsText := by
      rintro d d' start stop ⟨hd, ⟨rfl, hcurrent⟩ | hahead⟩ hrun hends hbinds
      · exact ⟨hfilled.bindsText hd hrun hends hbinds, Or.inr (.of_mark hd
          (Builder.sound_initial mode) hbuilds rfl rfl hcurrent hin hrun hends hbinds)⟩
      · exact ⟨hfilled.bindsText hd hrun hends hbinds,
          Or.inr (hahead.bindsText hd hrun hends hbinds)⟩
    takes := by
      rintro d d' token ⟨hd, ⟨hstart, -⟩ | hahead⟩ hmem htoken htakes
      · -- The first token is the mark, which is text.
        obtain ⟨text', next, hin', -, -⟩ := htoken.exists_markup (form_ne_text_of_takes htakes)
        cases hin'.rest_eq hin hstart
      · exact ⟨hfilled.takes hd hmem htoken htakes, Or.inr (hahead.takes htoken htakes)⟩ }

end Binder

namespace Document

variable {source : Source} {mode : NamespaceMode} {body text : List Char} {tree : Tree}

private theorem not_succeeds_bind_of_mark (hbuild : Tree.build mode body = .ok tree)
    (hbody : body = Text.byteOrderMark :: '<' :: text) : ¬ Succeeds (Document.bind tree body) := by
  rintro ⟨spans, hbind⟩
  obtain ⟨hlinked, howned⟩ := Tree.linked_of_build hbuild
  have hbuilds := Tree.Builder.Builds.of_build hbuild
  rw [hbody, List.head?_cons, if_pos rfl] at hbuilds
  obtain ⟨last, ⟨-, ⟨hzero, -⟩ | hahead⟩, -⟩ := exists_last_of_bind
    (Binder.invariant_ahead hlinked howned hbuilds hbody _) (fun h ↦ h.1.root)
    ⟨Binder.filled_initial tree, Or.inl ⟨rfl, rfl⟩⟩ hbind
  · rw [hbody] at hzero
    cases Text.byteSize_eq_zero_iff.1 hzero
  · exact hahead.not_byteSize

/-- A mark goes through only in front of text. -/
theorem succeeds_bind_iff_of_mark {entities : List Entity}
    (hbuild : Tree.build mode body = .ok tree) (hhead : body.head? = some Text.byteOrderMark)
    (hcontained : tree.Contained entities) :
    Succeeds (Document.bind tree body) ↔ Text.Scannable body := by
  obtain ⟨hlinked, howned⟩ := Tree.linked_of_build hbuild
  have hbuilds := Tree.Builder.Builds.of_build hbuild
  obtain ⟨rest, hbody⟩ := List.head?_eq_some_iff.1 hhead
  rw [if_pos hhead, hbody] at hbuilds
  cases rest with
  | nil =>
    -- There is no root in an empty body.
    cases hbuilds.of_nil.2.1
  | cons c text =>
    by_cases hc : c = '<'
    · subst hc
      refine iff_of_false (not_succeeds_bind_of_mark hbuild hbody) fun h ↦ h.mark ?_
      rw [hbody]
      exact ⟨text, rfl⟩
    · have hstep : Binder.InStep tree body entities [Text.byteOrderMark] _ _ 0 0 (c :: text) :=
        Binder.inStep_initial hbuilds hbody (Or.inr ⟨hhead, rfl⟩) entities
      obtain ⟨raw, rest, b', d', -, hsize, hstep', hplain, hcompletes⟩ :=
        hstep.run hc hlinked howned
      have hdrop : (if body.head? = some Text.byteOrderMark then body.drop 1 else body) =
          c :: text := by
        rw [if_pos hhead, hbody]
        rfl
      have hstart : [Text.byteOrderMark] ++ c :: text = body := hbody.symm
      rw [hstart] at hcompletes
      rw [succeeds_bind_iff, hcompletes, hstep'.completes_iff hlinked howned hcontained, ← hplain]
      constructor
      · rintro ⟨hplain, -⟩
        refine ⟨?_, hbody ▸ Binder.isDeclared_of_ne (by decide), hdrop ▸ hplain⟩
        rintro ⟨more, heq⟩
        rw [hbody] at heq
        exact hc (List.cons.inj (List.cons.inj heq).2).1.symm
      · intro h
        refine ⟨hdrop ▸ h.plain, fun hzero ↦ ?_⟩
        rw [Text.byteSize_append] at hzero
        omega

/-- The replay gets to the end of a body that was built exactly if the body is scannable. -/
theorem succeeds_bind_iff_scannable (hbuild : Tree.build mode body = .ok tree)
    (hself : ∀ {id name raw}, tree.kind? id = some (.doctype name raw) →
      Text.isSelfContained raw.toList = true) :
    Succeeds (Document.bind tree body) ↔ Text.Scannable body := by
  obtain ⟨hlinked, howned⟩ := Tree.linked_of_build hbuild
  obtain ⟨entities, hcontained⟩ := Tree.exists_contained hbuild hself
  have hbuilds := Tree.Builder.Builds.of_build hbuild
  by_cases hhead : body.head? = some Text.byteOrderMark
  · exact succeeds_bind_iff_of_mark hbuild hhead hcontained
  · rw [if_neg hhead] at hbuilds
    have hstep := Binder.inStep_initial hbuilds rfl (Or.inl rfl) entities
    rw [succeeds_bind_iff, hstep.completes_iff hlinked howned hcontained]
    constructor
    · rintro ⟨hplain, hdeclared⟩
      refine ⟨?_, hdeclared rfl, by rwa [if_neg hhead]⟩
      rintro ⟨rest, rfl⟩
      exact hhead rfl
    · intro h
      have hplain := h.plain
      rw [if_neg hhead] at hplain
      exact ⟨hplain, fun _ ↦ h.declared⟩

/-- A keyword in lower case, a key with a question mark, an instruction that looks like a
declaration, a declaration that holds something else, and a mark in front of markup. -/
example : ∀ body ∈ ["<!doctype a><a/>", "<a b?='c'/>", "<a/><?xml??>", "<?xml a?><a/>",
      "\uFEFF<a/>"],
    (Tree.build .aware body.toList).toOption.isSome ∧ ¬ Text.Scannable body.toList := by
  decide +kernel

theorem parse_of_build (hbuild : Tree.build mode source.body = .ok tree) :
    (∃ doc, parse source mode = .ok doc ∧ doc.tree = tree) ∧
        Succeeds (Document.bind tree source.body) ∨
      (∃ fault, parse source mode = .error (.internal fault)) ∧
        ¬ Succeeds (Document.bind tree source.body) := by
  obtain ⟨hlinked, howned⟩ := Tree.linked_of_build hbuild
  have hparse : parse source mode =
      (Document.bind tree source.body).mapError .internal >>= fun spans ↦
        (locate source tree spans).mapError .invalidRange := by
    unfold parse
    rw [hbuild]
    rfl
  cases hbind : Document.bind tree source.body with
  | error fault =>
    rw [hbind] at hparse
    refine Or.inr ⟨⟨fault, hparse⟩, ?_⟩
    rintro ⟨spans, hspans⟩
    cases hspans
  | ok spans =>
    obtain ⟨doc, hlocate⟩ := exists_locate_of_bind hlinked howned hbind
    have hok : parse source mode = .ok doc := by
      rw [hparse, hbind]
      exact mapError_eq_ok_iff.2 hlocate
    refine Or.inl ⟨⟨doc, hok, ?_⟩, .ok spans⟩
    obtain ⟨_, hbuild', -, -⟩ := exists_spans_of_parse hok
    exact Except.ok.inj (hbuild'.symm.trans hbuild)

/-- A source is parsed to what was built from its body, or parsing fails, either as building does or
because the replay comes upon something else than was built. If the document type declaration ends
where it should, the latter happens exactly if the body is not scannable. -/
theorem parse_iff_scannable (source : Source) (mode : NamespaceMode) :
    (∀ {fault}, Tree.build mode source.body = .error fault →
        parse source mode = .error (malformed source fault)) ∧
      ∀ {tree}, Tree.build mode source.body = .ok tree →
        ((∃ doc, parse source mode = .ok doc ∧ doc.tree = tree) ∨
          ∃ fault, parse source mode = .error (.internal fault)) ∧
        ((∀ {id name raw}, tree.kind? id = some (.doctype name raw) →
            Text.isSelfContained raw.toList = true) →
          ((∃ doc, parse source mode = .ok doc) ↔ Text.Scannable source.body)) := by
  refine ⟨fun {fault} hbuild ↦ ?_, fun {tree} hbuild ↦ ⟨?_, fun hself ↦ ?_⟩⟩
  · unfold parse
    rw [hbuild]
    rfl
  · exact (parse_of_build hbuild).imp And.left And.left
  · rw [← succeeds_bind_iff_scannable hbuild hself]
    rcases parse_of_build hbuild with ⟨⟨doc, hparse, -⟩, hbind⟩ | ⟨⟨fault, hparse⟩, hbind⟩
    · exact iff_of_true ⟨doc, hparse⟩ hbind
    · refine iff_of_false ?_ hbind
      rintro ⟨doc, hdoc⟩
      cases hparse.symm.trans hdoc

theorem parse_of_scannable_entity :
    let torn : Source := .ofChars "" .utf8 "<a><b></a>".toList
    let source : Source := .ofChars "" .utf8
      "<?xml version='1.0'?><!DOCTYPE a [<!ENTITY b 'c'>]><a d='&b;'>&b;</a>".toList
    (∃ fault, Tree.build .aware torn.body = .error fault ∧
      parse torn .aware = .error (malformed torn fault)) ∧
    ∃ tree, Tree.build .aware source.body = .ok tree ∧ Text.Scannable source.body ∧
      ∃ doc, parse source .aware = .ok doc := by
  intro torn source
  constructor
  · have hrun : (Tree.build .aware torn.body).toOption.isNone = true := by decide +kernel
    cases hbuild : Tree.build .aware torn.body with
    | error fault => exact ⟨fault, rfl, (parse_iff_scannable torn .aware).1 hbuild⟩
    | ok tree =>
      rw [hbuild] at hrun
      cases hrun
  · have hrun : (Tree.build .aware source.body).toOption.any (fun tree ↦
        tree.kind? 1 == some (.doctype "a" "a [<!ENTITY b 'c'>]")) = true := by
      decide +kernel
    obtain ⟨tree, hbuild, htree⟩ := exists_of_any hrun
    have hkind := beq_iff_eq.1 htree
    have hself : ∀ {id name raw}, tree.kind? id = some (.doctype name raw) →
        Text.isSelfContained raw.toList = true := by
      intro id name raw hkind'
      obtain rfl := Tree.doctype_unique_of_build hbuild hkind hkind'
      rw [hkind] at hkind'
      cases hkind'
      decide +kernel
    have hscannable : Text.Scannable source.body := by decide +kernel
    exact ⟨tree, hbuild, hscannable,
      (((parse_iff_scannable source .aware).2 hbuild).2 hself).2 hscannable⟩

/-- To the scan a keyword in lower case is the name of an element, and what follows it an attribute
without a value. -/
theorem internal_of_lowercase_doctype :
    let source : Source := .ofChars "" .utf8 "<!doctype a><a/>".toList
    (∃ tree, Tree.build .aware source.body = .ok tree ∧
      tree.kind? 1 = some (.doctype "a" "a")) ∧
    ∃ fault, parse source .aware = .error (.internal fault) := by
  intro source
  constructor
  · have hrun : (Tree.build .aware source.body).toOption.any (fun tree ↦
        tree.kind? 1 == some (.doctype "a" "a")) = true := by
      decide +kernel
    obtain ⟨tree, hbuild, htree⟩ := exists_of_any hrun
    exact ⟨tree, hbuild, beq_iff_eq.1 htree⟩
  · have hrun : (match parse source .aware with
        | .error (.internal _) => true
        | _ => false) = true := by
      decide +kernel
    split at hrun
    · rename_i fault hparse
      exact ⟨fault, hparse⟩
    · cases hrun

end Document

end XmlInspect
