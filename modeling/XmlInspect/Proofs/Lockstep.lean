import XmlInspect.Proofs.Shown

/-!
# The replay follows the building

Building cuts a body into pieces and the replay scans it for tokens, and neither knows of the other.
Still they go through the body together: whenever the replay comes to an offset, it has found as
many nodes as were built from what stands before, and they show what they are. The reason is that
every token has to find its node. Where the two readings of the same characters could part, in the
names of a tag or in what a mark at the head of the body is, the replay meets a node of another name
or kind sooner or later and fails.

Only a document type declaration has nothing in it to be compared. There the readings part if what
it holds does not end where building says, and nothing may come to notice. So everything here is
under the condition that it does end there.
-/

namespace XmlInspect

open Markup

/-! ## Keeping in step -/

private theorem Markup.Entity.lookup_of_nil {entities : List Entity} {name text : List Char}
    (h : lookup [] name = some text) : lookup entities name = some text := by
  have hpredefined : predefined? name = some text := by simpa [lookup] using h
  rw [lookup, hpredefined]
  rfl

/-- Where a document type declaration ends is decided by the declaration alone, and these are the
entities that it declares. -/
def Tree.Contained (tree : Tree) (entities : List Entity) : Prop :=
  ∀ {id name raw}, tree.kind? id = some (.doctype name raw) →
    Text.isSelfContained raw.toList = true ∧ entities = Entity.declared raw.toList

/-- Whether there is a document type declaration. -/
def Tree.hasDoctype (tree : Tree) : Bool :=
  tree.nodes.any fun node ↦ match node.kind with
    | .doctype _ _ => true
    | _ => false

theorem Tree.contained_of_hasDoctype {tree : Tree} (h : tree.hasDoctype = false) :
    tree.Contained [] := by
  intro id name raw hkind
  obtain ⟨node, hnode, hkind⟩ := Option.map_eq_some_iff.1 hkind
  have hnone := Array.any_eq_false'.1 h node (Array.mem_of_getElem? hnode)
  rw [hkind] at hnone
  exact absurd rfl hnone

theorem Tree.contained_of_kind? {tree : Tree} {mode : NamespaceMode} {body : List Char}
    {id : NodeId} {name raw : String} (hbuild : build mode body = .ok tree)
    (hkind : tree.kind? id = some (.doctype name raw))
    (hself : Text.isSelfContained raw.toList = true) :
    tree.Contained (Entity.declared raw.toList) := by
  intro id' name' raw' hkind'
  obtain rfl := doctype_unique_of_build hbuild hkind hkind'
  rw [hkind] at hkind'
  cases hkind'
  exact ⟨hself, rfl⟩

theorem Tree.exists_contained {tree : Tree} {mode : NamespaceMode} {body : List Char}
    (hbuild : build mode body = .ok tree)
    (hself : ∀ {id name raw}, tree.kind? id = some (.doctype name raw) →
      Text.isSelfContained raw.toList = true) : ∃ entities, tree.Contained entities := by
  by_cases hdoctype : ∃ id name raw, tree.kind? id = some (.doctype name raw)
  · obtain ⟨id, name, raw, hkind⟩ := hdoctype
    exact ⟨_, contained_of_kind? hbuild hkind (hself hkind)⟩
  · exact ⟨[], fun hkind ↦ absurd ⟨_, _, _, hkind⟩ hdoctype⟩

namespace Binder

open XmlInspect.Tree (Builder)

variable {tree : Tree} {body : List Char} {entities : List Entity} {b b' : Builder}
  {d d' : Binder} {offset : Nat} {kind : NodeKind}

/-- The visits at the end of what was built so far. -/
def visitsAt (tree : Tree) (path : List NodeId) : List Visit :=
  path.map fun id ↦ ⟨id, (tree.children id).length⟩

/-- The replay has come as far as the building, and what it has found is right. -/
structure Synced (tree : Tree) (body : List Char) (entities : List Entity) (b : Builder)
    (d : Binder) : Prop where
  visits : d.current :: d.outer = visitsAt b.tree b.path
  names : ∀ frame ∈ b.frames, ∃ name attrs,
    tree.kind? frame.node = some (.element name attrs) ∧ name.written.toList = frame.name
  lookup : ∀ {name text}, Entity.lookup b.entities name = some text →
    Entity.lookup entities name = some text
  shows : ∀ {id kind}, b.tree.kind? id = some kind → d.spans.Shows tree body entities id kind
  /-- An element with an empty tag has no children. -/
  childless : ∀ {id span}, (d.spans.ranges id).opening = some span →
    (d.spans.ranges id).whole = some span → b.tree.children id = []

theorem form_ne_text_of_takes {token : Token} (htakes : d.Takes token d') : token.form ≠ .text := by
  intro hform
  rw [Takes, hform] at htakes
  exact htakes

theorem synced_initial (tree : Tree) (body : List Char) (entities : List Entity)
    (mode : NamespaceMode) :
    Synced tree body entities (Builder.initial mode) (Binder.initial tree) where
  visits := rfl
  names _ hframe := by cases hframe
  lookup := Entity.lookup_of_nil
  shows {id kind} hkind := by
    cases id with
    | zero =>
      cases hkind
      trivial
    | succ id => cases hkind
  childless {id span} hopening := by
    rw [ranges_initial] at hopening
    cases hopening

theorem exists_prolog_of_takes {token : Token}
    (hform : token.form = .instruction ∨ ∃ attrs, token.form = .declaration attrs)
    (htakes : d.Takes token d') : ∃ prolog, d' = { d with spans := { d.spans with prolog } } := by
  rw [Takes] at htakes
  rcases hform with hform | ⟨attrs, hform⟩
  · rw [hform] at htakes
    exact ⟨d.spans.prolog, htakes⟩
  · rw [hform] at htakes
    exact ⟨_, htakes.2.2⟩

namespace Synced

theorem current (h : Synced tree body entities b d) :
    d.current = ⟨b.parent, (b.tree.children b.parent).length⟩ := by
  obtain ⟨outer, hpath⟩ := b.exists_path_eq
  have hvisits := h.visits
  rw [hpath] at hvisits
  exact (List.cons.inj hvisits).1

/-- What is added next to the tree is what the replay comes to next. -/
theorem next?_eq (h : Synced tree body entities b d) (hfilled : Filled tree d offset)
    (hsound : b.Sound) (hadds : b.Adds kind b') (hextends : b'.tree.Extends tree) :
    d.next? = some b.tree.size ∧ d.tree.kind? b.tree.size = some kind := by
  obtain ⟨hkind, hchild⟩ := hadds.of_extends hsound hextends
  rw [next?, hfilled.tree_eq, h.current]
  exact ⟨hchild, hkind⟩

theorem visits_advance (h : Synced tree body entities b d) (hfilled : Filled tree d offset)
    (hlinked : tree.Linked) (hsound : b.Sound) (hadds : b.Adds kind b') :
    d.advance.current :: d.outer = visitsAt b'.tree b.path := by
  obtain ⟨outer, hpath⟩ := b.exists_path_eq
  have hvisits := h.visits
  rw [hpath] at hvisits ⊢
  obtain ⟨hcurrent, houter⟩ := List.cons.inj hvisits
  rw [visitsAt, List.map_cons, hadds.children_eq hsound, if_pos rfl, List.length_append,
    advance, hcurrent, houter]
  congr 1
  -- The nodes further out get no children: they are not the node that the cursor is in.
  refine List.map_congr_left fun id hid ↦ ?_
  have hmem : (⟨id, (b.tree.children id).length⟩ : Visit) ∈ d.outer := by
    rw [houter]
    exact List.mem_map_of_mem hid
  have hne := hfilled.ne_current hlinked hmem
  rw [hcurrent] at hne
  rw [hadds.children_eq hsound, if_neg (Ne.symm hne)]

private theorem whole_parent (h : Synced tree body entities b d) (hfilled : Filled tree d offset) :
    (d.spans.ranges b.parent).whole = none := by
  have hmem : b.parent ∈ d.path := by
    rw [Binder.path, h.current]
    exact List.mem_cons_self
  by_cases hroot : b.parent = Tree.root
  · rw [hroot, hfilled.root]
    rfl
  · obtain ⟨-, opening, name, hranges, -⟩ := hfilled.isOpen b.parent hmem hroot
    rw [hranges]
    rfl

theorem childless_fills (h : Synced tree body entities b d) (hfilled : Filled tree d offset)
    (hsound : b.Sound) (hadds : b.Adds kind b') {ranges : Ranges Span} {spans : TreeSpans}
    (hfills : Fills tree d.spans b.tree.size ranges spans) {id : NodeId} {span : Span}
    (hopening : (spans.ranges id).opening = some span)
    (hwhole : (spans.ranges id).whole = some span) : b'.tree.children id = [] := by
  rw [hadds.children_eq hsound]
  by_cases hid : id = b.tree.size
  · rw [if_neg (Nat.ne_of_lt (hid ▸ hsound.parent_lt)),
      Tree.children_eq_nil_of_le (Nat.le_of_eq hid.symm)]
  · rw [hfills.ranges_of_ne hid] at hopening hwhole
    rw [if_neg, h.childless hopening hwhole]
    rintro rfl
    rw [h.whole_parent hfilled] at hwhole
    cases hwhole

theorem shows_fills (h : Synced tree body entities b d) (hadds : b.Adds kind b')
    {spans : TreeSpans} (hgrows : d.spans.Grows spans)
    (hshows : spans.Shows tree body entities b.tree.size kind) {id : NodeId} {kind' : NodeKind}
    (hkind : b'.tree.kind? id = some kind') : spans.Shows tree body entities id kind' := by
  rw [hadds.kind?_eq] at hkind
  split at hkind
  · rename_i hid
    cases hkind
    rw [hid]
    exact hshows
  · exact (h.shows hkind).grow hgrows

theorem leaf {expected : Expected} {ranges : Ranges Span} (h : Synced tree body entities b d)
    (hfilled : Filled tree d offset) (hlinked : tree.Linked) (howned : tree.Owned)
    (hsound : b.Sound) (hadds : b.Adds kind b') (hextends : b'.tree.Extends tree)
    (hframes : b'.frames = b.frames)
    (hlookup : ∀ {name text}, Entity.lookup b'.entities name = some text →
      Entity.lookup entities name = some text)
    (hexpected : expected ≠ .element) (hbinds : d.Binds expected ranges d')
    (hshows : ∀ {spans : TreeSpans}, spans.ranges b.tree.size = ranges →
      spans.Shows tree body entities b.tree.size kind) : Synced tree body entities b' d' := by
  obtain ⟨id, kind', hmeets, rfl⟩ := hbinds
  obtain ⟨hnext, -⟩ := h.next?_eq hfilled hsound hadds hextends
  obtain rfl : b.tree.size = id := Option.some.inj (hnext.symm.trans hmeets.1)
  have hfills : Fills tree d.spans b.tree.size ranges _ :=
    (hfilled.fills_of_meets hlinked howned hexpected hmeets).2
  have hgrows := hfilled.grows_of_fills hlinked howned hnext hfills
  have hpath : b'.path = b.path := by rw [Builder.path, hframes, Builder.path]
  exact {
    visits := hpath ▸ h.visits_advance hfilled hlinked hsound hadds
    names := hframes ▸ h.names
    lookup := hlookup
    shows := h.shows_fills hadds hgrows (hshows hfills.ranges_self)
    childless := h.childless_fills hfilled hsound hadds hfills }

theorem instructs {token : Token} (h : Synced tree body entities b d)
    (hform : token.form = .instruction ∨ ∃ attrs, token.form = .declaration attrs)
    (htakes : d.Takes token d') : Synced tree body entities b d' := by
  obtain ⟨prolog, rfl⟩ := exists_prolog_of_takes hform htakes
  exact ⟨h.visits, h.names, h.lookup, fun hkind ↦ (h.shows hkind).grow (.setProlog _ _),
    h.childless⟩

theorem leaves {token : Token} {written : Lexeme} {frame : Tree.Frame} {frames : List Tree.Frame}
    (h : Synced tree body entities b d) (hfilled : Filled tree d token.start)
    (hlinked : tree.Linked) (hlt : token.start < token.stop) (hframes : b.frames = frame :: frames)
    (hleaves : d.Leaves token written d') :
    Synced tree body entities { b with frames, scope := frame.outer } d' := by
  have hgrows := hfilled.grows_of_leaves hlinked hleaves
  obtain ⟨visit, outer, opening, name, houter, hranges, -, -, rfl⟩ := hleaves
  have hvisits := h.visits
  rw [houter, Builder.path, hframes, List.map_cons, List.cons_append] at hvisits
  refine ⟨(List.cons.inj hvisits).2, ?_, h.lookup, fun hkind ↦ (h.shows hkind).grow hgrows, ?_⟩
  · intro inner hinner
    exact h.names inner (by rw [hframes]; exact List.mem_cons_of_mem _ hinner)
  · intro id span hopening hwhole
    have hupdate := hfilled.ranges_left hlinked houter (closedPlaces opening token.span name)
    by_cases hid : id = d.current.node
    · -- The closing tag comes after the opening tag, so the element is more than that.
      have hstop := hfilled.stop_le hlinked (by simp [houter]) hranges
      have hclosed := Filled.closed_closedPlaces opening token.span name
        (Nat.lt_of_le_of_lt hstop hlt)
      dsimp only at hopening hwhole
      rw [hupdate, hid, Function.update_self] at hopening hwhole
      exact absurd (hopening.trans hwhole.symm) hclosed.2.2
    · dsimp only at hopening hwhole
      rw [hupdate, Function.update_of_ne hid] at hopening hwhole
      exact h.childless hopening hwhole

/-! ## Tags -/

/-- The element of an opening tag is what the replay comes to next, and it has the name and the
attributes that were read. -/
theorem exists_element {start stop : Nat} {content : List Char} {selfClosing : Bool}
    (h : Synced tree body entities b d) (hfilled : Filled tree d offset) (hsound : b.Sound)
    (htake : b.takeOpenTag start stop content selfClosing = .ok b')
    (hextends : b'.tree.Extends tree) :
    ∃ qname ids raws, qname.written = String.ofList (content.takeWhile (!Text.isXmlBlank ·)) ∧
      RawAttribute.readAll true [] (Text.byteSize (content.takeWhile (!Text.isXmlBlank ·)))
        (content.dropWhile (!Text.isXmlBlank ·)) = (raws, none) ∧
      List.Forall₂ (tree.Carries entities) ids raws ∧ b.Adds (.element qname ids) b' ∧
      d.next? = some b.tree.size ∧ d.tree.kind? b.tree.size = some (.element qname ids) ∧
      b'.entities = b.entities ∧ b'.frames = if selfClosing then b.frames else
        ⟨b.tree.size, content.takeWhile (!Text.isXmlBlank ·), b.scope⟩ :: b.frames := by
  obtain ⟨scope, qname, raws, attrs, hwritten, hread, hreads, hb'⟩ :=
    Builder.takeOpenTag_eq_ok htake
  have htree : b'.tree = b.tree.appendElement b.parent qname
      (attrs.map fun attr ↦ (attr.1, String.ofList attr.2)) := by rw [hb']
  have hadds := Builder.adds_appendElement htree
  rw [List.length_map] at hadds
  have hcarries := Builder.forall₂_carries hreads (htree ▸ hextends) h.lookup
  obtain ⟨hnext, hkind⟩ := h.next?_eq hfilled hsound hadds hextends
  exact ⟨qname, _, raws, hwritten, hread, hcarries, hadds, hnext, hkind, by rw [hb'], by rw [hb']⟩

/-- If the replay takes an opening tag for the next child, both readings found the same name in it,
and none of its attributes has a name that would end for the scan before it does. -/
theorem tag_names {start stop : Nat} {content text : List Char} {selfClosing selfClosing' : Bool}
    {name : Lexeme} {lexemes : List AttributeLexeme} {next : Cursor} {id : NodeId}
    {ids : List AttrId} (h : Synced tree body entities b d) (hfilled : Filled tree d offset)
    (hsound : b.Sound) (htake : b.takeOpenTag start stop content selfClosing = .ok b')
    (hextends : b'.tree.Extends tree)
    (hopen : Cursor.openTag offset text = .ok (.openTag name lexemes selfClosing', next))
    (htagged : d.Tagged name lexemes id ids) :
    name.text = content.takeWhile (!Text.isXmlBlank ·) ∧
      ∀ raw ∈ (RawAttribute.readAll true [] (Text.byteSize (content.takeWhile (!Text.isXmlBlank ·)))
        (content.dropWhile (!Text.isXmlBlank ·))).1, ∀ c ∈ raw.key, Cursor.endsName c = false := by
  obtain ⟨qname, ids', raws, hwritten, hread, hcarries, -, hnext, hkind, -, -⟩ :=
    h.exists_element hfilled hsound htake hextends
  obtain rfl : b.tree.size = id := by
    obtain ⟨kind, hmeets⟩ := htagged.meets
    exact Option.some.inj (hnext.symm.trans hmeets.1)
  constructor
  · have heq := htagged.name_eq
    rw [Tree.name?, hkind] at heq
    exact String.ofList_injective (heq.trans hwritten)
  · -- Every attribute that was read is one that the replay has found, so its name is one for the
    -- scan.
    rw [hread]
    intro raw hraw
    obtain ⟨a, ha, attr, hattr, hkey, -⟩ := exists_of_forall₂_of_mem hcarries.flip hraw
    have hperm := htagged.perm
    rw [Tree.attributesOf, hkind] at hperm
    obtain ⟨lexeme, hlexeme, hnames⟩ :=
      exists_of_forall₂_of_mem htagged.names (hperm.mem_iff.1 ha)
    rw [Names, hfilled.tree_eq, Tree.writtenAttr?, hattr] at hnames
    have hsame : attr.name.written = String.ofList lexeme.name.text := Option.some.inj hnames
    rw [← hkey, hsame, String.toList_ofList]
    exact Cursor.endsName_of_openTag hopen lexeme hlexeme

theorem tag {start stop : Nat} {content text rest : List Char} {selfClosing selfClosing' : Bool}
    {name : Lexeme} {lexemes : List AttributeLexeme} {next : Cursor} {id : NodeId}
    {ids : List AttrId} (h : Synced tree body entities b d) (hfilled : Filled tree d offset)
    (hsound : b.Sound) (htake : b.takeOpenTag start stop content selfClosing = .ok b')
    (hextends : b'.tree.Extends tree)
    (hopen : Cursor.openTag offset text = .ok (.openTag name lexemes selfClosing', next))
    (htext : text = content ++ (Cursor.tagStop selfClosing ++ rest))
    (htagged : d.Tagged name lexemes id ids) :
    selfClosing' = selfClosing ∧ next.rest = rest ∧ id = b.tree.size ∧
      ∃ qname, b.Adds (.element qname ids) b' ∧ qname.written.toList = name.text ∧
        List.Forall₂ (tree.Writes entities) ids lexemes ∧ b'.entities = b.entities ∧
        b'.frames = if selfClosing then b.frames else
          ⟨b.tree.size, name.text, b.scope⟩ :: b.frames := by
  obtain ⟨hname, hkeys⟩ := h.tag_names hfilled hsound htake hextends hopen htagged
  obtain ⟨qname, ids', raws, hwritten, hread, hcarries, hadds, hnext, hkind, hentities, hframes⟩ :=
    h.exists_element hfilled hsound htake hextends
  obtain rfl : b.tree.size = id := by
    obtain ⟨kind, hmeets⟩ := htagged.meets
    exact Option.some.inj (hnext.symm.trans hmeets.1)
  have hattributes : d.tree.attributesOf b.tree.size = ids' := by rw [Tree.attributesOf, hkind]
  rw [hread] at hkeys
  obtain ⟨hclosing, hrest, hspells⟩ := Cursor.openTag_agrees hopen htext hname hread hkeys
  have hwrites := forall₂_comp hcarries hspells Tree.Carries.writes
  have hids : ids = ids' := by
    rw [htagged.in_order, hattributes]
    rw [hattributes, hfilled.tree_eq]
    exact hwrites.imp fun _ _ hwrites ↦ hwrites.names
  refine ⟨hclosing, hrest, rfl, qname, hids ▸ hadds, ?_, hids ▸ hwrites, hentities, ?_⟩
  · rw [hwritten, String.toList_ofList, hname]
  · rw [hframes, hname]

theorem shows_tag {token : Token} {name : Lexeme} {lexemes : List AttributeLexeme}
    {selfClosing : Bool} {qname : QName} {id : NodeId} {ids : List AttrId} {ranges : Ranges Span}
    (hfilled : Filled tree d offset) (hlinked : tree.Linked) (howned : tree.Owned)
    (htoken : token.Scanned body) (hform : token.form = .openTag name lexemes selfClosing)
    (htagged : d.Tagged name lexemes id ids) (hname : qname.written.toList = name.text)
    (hwrites : List.Forall₂ (tree.Writes entities) ids lexemes)
    (hopening : ranges.opening = some token.span) (hspan : ranges.name = some name.span) :
    ((d.spans.fill id ranges).fillAttrs ids lexemes).Shows tree body entities id
      (.element qname ids) := by
  have hfits := htoken.fits
  rw [Token.Fits, hform] at hfits
  obtain ⟨hstart, ⟨front, hraw⟩, hrow⟩ := hfits
  have hstop : name.stop = token.start + 1 + Text.byteSize qname.written.toList := by
    rw [Lexeme.stop, hstart, hname]
  obtain ⟨kind, hmeets⟩ := htagged.meets
  have hready := hfilled.ready hlinked howned
  have hperm := htagged.perm
  have hroom := hready.freshAttrs id hmeets.1
  have hplaces : List.Forall₂ (fun a lexeme ↦
      ((d.spans.fill id ranges).fillAttrs ids lexemes).attrRanges a = lexeme.places) ids lexemes :=
    TreeSpans.forall₂_fillAttrs hwrites.length_eq (hperm.nodup_iff.1 hroom.1)
      fun a ha ↦ (hroom.2 a (hperm.mem_iff.2 ha)).1
  have hfills := hfilled.fills_of_tagged hlinked howned htagged ranges
  obtain ⟨front', hfront'⟩ : ∃ front', front ++ Cursor.tagStop selfClosing = front' ++ ['>'] := by
    cases selfClosing with
    | true => exact ⟨front ++ ['/'], by simp [Cursor.tagStop]⟩
    | false => exact ⟨front, rfl⟩
  refine ⟨token.start, token.stop, front', lexemes, ?_, ?_, ?_, ?_, hstop ▸ hrow⟩
  · rw [hfills.ranges_self, hopening]
    rfl
  · rw [hfills.ranges_self, hspan, Lexeme.span, hstart, hstop]
  · rw [hname, ← hfront', ← hraw]
    exact htoken.stands
  · refine List.Forall₂.mp (fun a lexeme hplace hwrites ↦ ⟨fun slot span hspan ↦ ?_, hwrites⟩)
      hplaces hwrites
    rw [hplace]
    exact hspan

section Opening

variable {token : Token} {start stop : Nat} {content text rest : List Char} {selfClosing : Bool}
  {name : Lexeme} {lexemes : List AttributeLexeme} {next : Cursor}

theorem bindsEmpty (h : Synced tree body entities b d) (hfilled : Filled tree d token.start)
    (hlinked : tree.Linked) (howned : tree.Owned) (hsound : b.Sound)
    (htake : b.takeOpenTag start stop content selfClosing = .ok b')
    (hextends : b'.tree.Extends tree) (htoken : token.Scanned body)
    (hform : token.form = .openTag name lexemes true)
    (hopen : Cursor.openTag token.start text = .ok (token.form, next))
    (htext : text = content ++ (Cursor.tagStop selfClosing ++ rest))
    (hbinds : d.BindsEmpty token name lexemes d') :
    next.rest = rest ∧ Synced tree body entities b' d' := by
  rw [hform] at hopen
  obtain ⟨id, ids, htagged, rfl⟩ := hbinds
  obtain ⟨rfl, hrest, rfl, qname, hadds, hname, hwrites, hentities, hframes⟩ :=
    h.tag hfilled hsound htake hextends hopen htext htagged
  obtain ⟨kind, hmeets⟩ := htagged.meets
  have hfills := hfilled.fills_of_tagged hlinked howned htagged
    ⟨some token.span, some token.span, some token.closing, some name.span, none⟩
  have hgrows := hfilled.grows_of_fills hlinked howned hmeets.1 hfills
  have hpath : b'.path = b.path := by rw [Builder.path, hframes, if_pos rfl, Builder.path]
  exact ⟨hrest, {
    visits := hpath ▸ h.visits_advance hfilled hlinked hsound hadds
    names := by
      rw [hframes, if_pos rfl]
      exact h.names
    lookup := hentities ▸ h.lookup
    shows := h.shows_fills hadds hgrows
      (shows_tag hfilled hlinked howned htoken hform htagged hname hwrites rfl rfl)
    childless := h.childless_fills hfilled hsound hadds hfills }⟩

theorem enters (h : Synced tree body entities b d) (hfilled : Filled tree d token.start)
    (hlinked : tree.Linked) (howned : tree.Owned) (hsound : b.Sound)
    (htake : b.takeOpenTag start stop content selfClosing = .ok b')
    (hextends : b'.tree.Extends tree) (htoken : token.Scanned body)
    (hform : token.form = .openTag name lexemes false)
    (hopen : Cursor.openTag token.start text = .ok (token.form, next))
    (htext : text = content ++ (Cursor.tagStop selfClosing ++ rest))
    (henters : d.Enters token name lexemes d') :
    next.rest = rest ∧ Synced tree body entities b' d' := by
  rw [hform] at hopen
  obtain ⟨id, ids, htagged, rfl⟩ := henters
  obtain ⟨rfl, hrest, rfl, qname, hadds, hname, hwrites, hentities, hframes⟩ :=
    h.tag hfilled hsound htake hextends hopen htext htagged
  obtain ⟨kind, hmeets⟩ := htagged.meets
  have hfills := hfilled.fills_of_tagged hlinked howned htagged (openPlaces token.span name.span)
  have hgrows := hfilled.grows_of_fills hlinked howned hmeets.1 hfills
  rw [if_neg Bool.false_ne_true] at hframes
  have hchildren : b'.tree.children b.tree.size = [] := by
    rw [hadds.children_eq hsound, if_neg (Nat.ne_of_lt hsound.parent_lt),
      Tree.children_eq_nil_of_le (Nat.le_refl _)]
  exact ⟨hrest, {
    visits := by
      rw [Builder.path, hframes, List.map_cons, List.cons_append, visitsAt, List.map_cons,
        hchildren]
      exact congrArg _ (h.visits_advance hfilled hlinked hsound hadds)
    names := by
      rw [hframes]
      intro frame hframe
      rcases List.mem_cons.1 hframe with rfl | hframe
      · exact ⟨qname, ids, (hadds.of_extends hsound hextends).1, hname⟩
      · exact h.names frame hframe
    lookup := hentities ▸ h.lookup
    shows := h.shows_fills hadds hgrows
      (shows_tag hfilled hlinked howned htoken hform htagged hname hwrites rfl rfl)
    childless := h.childless_fills hfilled hsound hadds hfills }⟩

end Opening

private theorem text_eq {token : Token} {written : Lexeme} {frame : Tree.Frame}
    {frames : List Tree.Frame} (h : Synced tree body entities b d) (hfilled : Filled tree d offset)
    (hframes : b.frames = frame :: frames) (hleaves : d.Leaves token written d') :
    written.text = frame.name := by
  obtain ⟨visit, outer, opening, name, -, -, -, hname, -⟩ := hleaves
  obtain ⟨qname, attrs, hkind, hwritten⟩ := h.names frame (by simp [hframes])
  have hcurrent : d.current.node = frame.node := by
    rw [h.current, Builder.parent, hframes]
  rw [hfilled.tree_eq, hcurrent, Tree.name?, hkind] at hname
  rw [← hwritten, ← String.toList_ofList (l := written.text), hname]
  rfl

/-! ## Any piece -/

theorem exists_tagged {token : Token} {name : Lexeme} {lexemes : List AttributeLexeme}
    {selfClosing : Bool} (hform : token.form = .openTag name lexemes selfClosing)
    (htakes : d.Takes token d') : ∃ id ids, d.Tagged name lexemes id ids := by
  rw [Takes, hform] at htakes
  cases selfClosing with
  | true =>
    obtain ⟨id, ids, htagged, -⟩ := htakes
    exact ⟨id, ids, htagged⟩
  | false =>
    obtain ⟨id, ids, htagged, -⟩ := htakes
    exact ⟨id, ids, htagged⟩

/-- What the replay takes for a document type declaration has its keyword in upper case. -/
theorem exists_blanks_of_doctype {token : Token} {text rest content : List Char} {next : Cursor}
    (h : Synced tree body entities b d) (hfilled : Filled tree d token.start) (hsound : b.Sound)
    (hcuts : (Form.doctype content).Cuts text rest) (htake : b.takeDoctype content = .ok b')
    (hextends : b'.tree.Extends tree)
    (hmarkup : Cursor.markup token.start text = .ok (token.form, next))
    (htakes : d.Takes token d') :
    token.form = .doctype ∧ ∃ blanks, (∀ c ∈ blanks, Text.isXmlBlank c = true) ∧
      text = "!DOCTYPE".toList ++ (blanks ++ (content ++ '>' :: rest)) ∧
      Cursor.doctypeEnd token.start 0 none
        ⟨token.start + 9, blanks ++ (content ++ '>' :: rest)⟩ = .ok next := by
  have hadds := Builder.adds_of_takeDoctype hsound htake
  obtain ⟨hnext, hkind⟩ := h.next?_eq hfilled hsound hadds hextends
  rcases Cursor.doctype_agrees hmarkup hcuts with ⟨name, lexemes, selfClosing, hform⟩ | hdoctype
  · -- For the scan this is a tag, but the node that comes next is no element.
    obtain ⟨id, ids, htagged⟩ := exists_tagged hform htakes
    obtain ⟨kind, hmeets, hkind', haccepts⟩ := htagged.meets
    obtain rfl : b.tree.size = id := Option.some.inj (hnext.symm.trans hmeets)
    rw [hkind] at hkind'
    cases hkind'
    cases haccepts
  · exact hdoctype

/-- A document type declaration is added and found, and what it holds tells where it ends. -/
theorem doctype {token : Token} {text rest content : List Char} {next : Cursor}
    (h : Synced tree body entities b d) (hfilled : Filled tree d token.start)
    (hlinked : tree.Linked) (howned : tree.Owned) (hcontained : tree.Contained entities)
    (hsound : b.Sound) (hcuts : (Form.doctype content).Cuts text rest)
    (htake : b.takeDoctype content = .ok b') (hextends : b'.tree.Extends tree)
    (htoken : token.Scanned body)
    (hmarkup : Cursor.markup token.start text = .ok (token.form, next))
    (hraw : '<' :: text = token.raw ++ next.rest) (htakes : d.Takes token d') :
    next.rest = rest ∧ Synced tree body entities b' d' := by
  have hadds := Builder.adds_of_takeDoctype hsound htake
  obtain ⟨-, -, hb'⟩ := Builder.takeDoctype_eq_ok htake
  obtain ⟨hnext, hkind⟩ := h.next?_eq hfilled hsound hadds hextends
  obtain ⟨hform, blanks, hblanks, htext, hend⟩ :=
    h.exists_blanks_of_doctype hfilled hsound hcuts htake hextends hmarkup htakes
  -- Nothing in the tree tells where the declaration ends, so it has to be known.
  rw [hfilled.tree_eq] at hkind
  obtain ⟨hself, hentities⟩ := hcontained hkind
  rw [String.toList_ofList (l := content)] at hself hentities
  obtain rfl := (Cursor.isSelfContained_iff_rest_eq hblanks hend).1 hself
  rw [Takes, hform] at htakes
  have hlookup : ∀ {name text}, Entity.lookup b'.entities name = some text →
      Entity.lookup entities name = some text := by
    rw [hb', hentities]
    exact fun hlookup ↦ hlookup
  refine ⟨rfl, h.leaf hfilled hlinked howned hsound hadds hextends (by rw [hb']) hlookup
    (by simp) htakes fun hranges ↦ ⟨token.span, blanks, by rw [hranges], hblanks, ?_⟩⟩
  have heq : '<' :: text =
      "<!DOCTYPE".toList ++ blanks ++ content ++ ">".toList ++ next.rest := by
    rw [htext]
    simp
  rw [String.toList_ofList (l := content), List.append_cancel_right (heq.symm.trans hraw)]
  exact htoken.stands

/-- Both readings take markup for the same, and the replay keeps up. -/
theorem takes {token : Token} {position : Nat} {text rest raw : List Char} {form : Form}
    {next : Cursor} (h : Synced tree body entities b d) (hfilled : Filled tree d token.start)
    (hlinked : tree.Linked) (howned : tree.Owned) (hcontained : tree.Contained entities)
    (hsound : b.Sound) (hcut : cutMarkup text = .ok (form, rest))
    (htake : b.take ⟨position, raw, form⟩ = .ok b') (hextends : b'.tree.Extends tree)
    (htoken : token.Scanned body)
    (hmarkup : Cursor.markup token.start text = .ok (token.form, next))
    (hraw : '<' :: text = token.raw ++ next.rest) (htakes : d.Takes token d') :
    next.rest = rest ∧ Synced tree body entities b' d' := by
  have hcuts := cuts_of_cutMarkup hcut
  cases form with
  | text => exact hcuts.elim
  | openTag content selfClosing =>
    obtain ⟨htext, hhead⟩ := hcuts
    rw [Cursor.markup_eq_openTag _ hhead] at hmarkup
    obtain ⟨name, lexemes, selfClosing', -, hform, -⟩ := Cursor.openTag_eq_ok hmarkup
    rw [Takes, hform] at htakes
    cases selfClosing' with
    | true =>
      exact h.bindsEmpty hfilled hlinked howned hsound htake hextends htoken hform hmarkup htext
        htakes
    | false =>
      exact h.enters hfilled hlinked howned hsound htake hextends htoken hform hmarkup htext htakes
  | closeTag name =>
    obtain ⟨lexeme, hform, hrest⟩ := Cursor.closeTag_of_markup hmarkup hcuts
    obtain ⟨frame, frames, hframes, rfl, rfl⟩ :=
      Builder.takeCloseTag_eq_ok (Builder.reportAt_eq_ok_iff.1 htake)
    rw [Takes, hform] at htakes
    exact ⟨hrest (h.text_eq hfilled hframes htakes),
      h.leaves hfilled hlinked htoken.start_lt_stop hframes htakes⟩
  | comment content =>
    obtain ⟨hform, rfl, heq⟩ := Cursor.comment_agrees hmarkup hcuts
    obtain rfl := Builder.takeComment_eq_ok (Builder.reportAt_eq_ok_iff.1 htake)
    rw [Takes, hform] at htakes
    refine ⟨rfl, h.leaf hfilled hlinked howned hsound rfl hextends rfl h.lookup (by simp) htakes
      fun hranges ↦ .of_token next.rest htoken hranges ?_ ?_ ?_⟩
    · rw [Token.openingSize, hform]
      rfl
    · rw [Token.closingSize, hform]
      rfl
    · rw [String.toList_ofList (l := content)]
      exact heq.symm.trans hraw
  | cdata content =>
    obtain ⟨hform, rfl, heq⟩ := Cursor.cdata_agrees hmarkup hcuts
    obtain rfl := Builder.takeCdata_eq_ok (Builder.reportAt_eq_ok_iff.1 htake)
    rw [Takes, hform] at htakes
    refine ⟨rfl, h.leaf hfilled hlinked howned hsound rfl hextends rfl h.lookup (by simp) htakes
      fun hranges ↦ .of_token next.rest htoken hranges ?_ ?_ ?_⟩
    · rw [Token.openingSize, hform]
      rfl
    · rw [Token.closingSize, hform]
      rfl
    · rw [String.toList_ofList (l := content)]
      exact heq.symm.trans hraw
  | doctype content =>
    exact h.doctype hfilled hlinked howned hcontained hsound hcuts
      (Builder.reportAt_eq_ok_iff.1 htake) hextends htoken hmarkup hraw htakes
  | declaration =>
    obtain ⟨hform, hrest⟩ := Cursor.instruction_agrees hmarkup hcuts
    obtain rfl := Builder.take_eq_ok_of_isInstruction htake (Or.inl rfl)
    exact ⟨hrest, h.instructs hform htakes⟩
  | instruction =>
    obtain ⟨hform, hrest⟩ := Cursor.instruction_agrees hmarkup hcuts
    obtain rfl := Builder.take_eq_ok_of_isInstruction htake (Or.inr rfl)
    exact ⟨hrest, h.instructs hform htakes⟩

/-- A run of text is added and found. There may be a byte-order mark in front of it. -/
theorem text {start stop : Nat} {mark raw content : List Char}
    (h : Synced tree body entities b d) (hfilled : Filled tree d start) (hlinked : tree.Linked)
    (howned : tree.Owned) (hsound : b.Sound)
    (hextends : (b.appendLeaf (.text (String.ofList content))).tree.Extends tree)
    (hstands : Text.Stands body start stop (mark ++ raw))
    (hmark : mark = [] ∨
      (body.head? = some Text.byteOrderMark ∧ mark = [Text.byteOrderMark]) ∧ b.tree.size = 1)
    (hcontent : unescape (Entity.lookup b.entities) raw = .ok content)
    (hbinds : d.Binds .text ⟨some ⟨start, stop⟩, none, none, none, none⟩ d') :
    Synced tree body entities (b.appendLeaf (.text (String.ofList content))) d' := by
  refine h.leaf hfilled hlinked howned hsound rfl hextends rfl h.lookup (by simp) hbinds
    fun hranges ↦ ⟨⟨start, stop⟩, mark, raw, by rw [hranges], hstands, hmark, ?_⟩
  rw [String.toList_ofList]
  exact unescapeFrom_mono h.lookup hcontent _ _

end Synced

/-! ## Ahead by a mark

To the scan a byte-order mark is text, and building skips it. If markup follows, the replay takes
the mark for the run of text that comes next, and is ahead from then on until the root comes, where
it fails. -/

/-- The replay has found one child of the document more than there are, and this is text. -/
structure Ahead (tree : Tree) (b : Builder) (d : Binder) : Prop where
  frames : b.frames = []
  rootSeen : b.rootSeen = false
  current : d.current = ⟨Tree.root, (b.tree.children Tree.root).length + 1⟩
  text : ∃ id content, (tree.children Tree.root)[(b.tree.children Tree.root).length]? = some id ∧
    tree.kind? id = some (.text content)

namespace Ahead

theorem parent (h : Ahead tree b d) : b.parent = Tree.root := by
  rw [Builder.parent, h.frames]

private theorem eq_text (h : Ahead tree b d) (hsound : b.Sound) (hadds : b.Adds kind b')
    (hextends : b'.tree.Extends tree) : ∃ content, kind = .text content := by
  obtain ⟨hkind, hchild⟩ := hadds.of_extends hsound hextends
  obtain ⟨id, content, htext, hkind'⟩ := h.text
  rw [h.parent, htext] at hchild
  cases hchild
  rw [hkind'] at hkind
  exact ⟨content, (Option.some.inj hkind).symm⟩

theorem of_binds {ranges : Ranges Span} (hfilled : Filled tree d offset) (hframes : b.frames = [])
    (hseen : b.rootSeen = false)
    (hcurrent : d.current = ⟨Tree.root, (b.tree.children Tree.root).length⟩)
    (hbinds : d.Binds .text ranges d') : Ahead tree b d' := by
  obtain ⟨id, kind, ⟨hnext, hkind, haccepts⟩, rfl⟩ := hbinds
  rw [next?, hfilled.tree_eq, hcurrent] at hnext
  rw [hfilled.tree_eq] at hkind
  refine ⟨hframes, hseen, ?_, ?_⟩
  · rw [advance, hcurrent]
  · cases kind with
    | text content => exact ⟨id, content, hnext, hkind⟩
    | _ => cases haccepts

theorem instructs {token : Token} (h : Ahead tree b d)
    (hform : token.form = .instruction ∨ ∃ attrs, token.form = .declaration attrs)
    (htakes : d.Takes token d') : Ahead tree b d' := by
  obtain ⟨prolog, rfl⟩ := exists_prolog_of_takes hform htakes
  exact ⟨h.frames, h.rootSeen, h.current, h.text⟩

/-- Markup does not bring the replay back in step. -/
theorem takes {token : Token} {position : Nat} {text rest raw : List Char} {form : Form}
    {next : Cursor} (h : Ahead tree b d) (hsound : b.Sound)
    (hcut : cutMarkup text = .ok (form, rest)) (htake : b.take ⟨position, raw, form⟩ = .ok b')
    (hextends : b'.tree.Extends tree)
    (hmarkup : Cursor.markup token.start text = .ok (token.form, next))
    (htakes : d.Takes token d') : next.rest = rest ∧ Ahead tree b' d' := by
  have hcuts := cuts_of_cutMarkup hcut
  -- Markup other than instructions would add a node where text is.
  cases form with
  | text => exact hcuts.elim
  | openTag content selfClosing =>
    obtain ⟨scope, qname, raws, attrs, -, -, -, rfl⟩ := Builder.takeOpenTag_eq_ok htake
    obtain ⟨content, heq⟩ := h.eq_text hsound (Builder.adds_appendElement rfl) hextends
    cases heq
  | closeTag name =>
    obtain ⟨frame, frames, hframes, -, -⟩ :=
      Builder.takeCloseTag_eq_ok (Builder.reportAt_eq_ok_iff.1 htake)
    rw [h.frames] at hframes
    cases hframes
  | comment content =>
    obtain rfl := Builder.takeComment_eq_ok (Builder.reportAt_eq_ok_iff.1 htake)
    obtain ⟨content, heq⟩ := h.eq_text hsound (Builder.adds_appendLeaf b _) hextends
    cases heq
  | cdata content =>
    obtain rfl := Builder.takeCdata_eq_ok (Builder.reportAt_eq_ok_iff.1 htake)
    obtain ⟨content, heq⟩ := h.eq_text hsound (Builder.adds_appendLeaf b _) hextends
    cases heq
  | doctype content =>
    have hadds := Builder.adds_of_takeDoctype hsound (Builder.reportAt_eq_ok_iff.1 htake)
    obtain ⟨content, heq⟩ := h.eq_text hsound hadds hextends
    cases heq
  | declaration =>
    obtain ⟨hform, hrest⟩ := Cursor.instruction_agrees hmarkup hcuts
    obtain rfl := Builder.take_eq_ok_of_isInstruction htake (Or.inl rfl)
    exact ⟨hrest, h.instructs hform htakes⟩
  | instruction =>
    obtain ⟨hform, hrest⟩ := Cursor.instruction_agrees hmarkup hcuts
    obtain rfl := Builder.take_eq_ok_of_isInstruction htake (Or.inr rfl)
    exact ⟨hrest, h.instructs hform htakes⟩

end Ahead

/-- The replay is ahead when it comes to an offset of the body. -/
def IsAhead (tree : Tree) (body : List Char) (d : Binder) (offset : Nat) : Prop :=
  ∃ b : Builder, ∃ position rest, b.Sound ∧ b.Builds position rest tree ∧
    Cursor.IsIn ⟨offset, rest⟩ body ∧ Ahead tree b d

namespace IsAhead

theorem takes {token : Token} (h : IsAhead tree body d token.start) (htoken : token.Scanned body)
    (htakes : d.Takes token d') : IsAhead tree body d' token.stop := by
  obtain ⟨text, next, hin', hmarkup, hraw⟩ := htoken.exists_markup (form_ne_text_of_takes htakes)
  obtain ⟨b, position, rest, hsound, hbuilds, hin, hahead⟩ := h
  obtain rfl : '<' :: text = rest := hin'.rest_eq hin rfl
  obtain ⟨form, rest, raw, b', hcut, htake, hsound', hextends, hbuilds'⟩ := hbuilds.of_markup hsound
  obtain ⟨rfl, hahead'⟩ := hahead.takes hsound hcut htake hextends hmarkup htakes
  exact ⟨b', _, next.rest, hsound', hbuilds', Cursor.Moves.isIn ⟨hraw, rfl⟩ hin', hahead'⟩

theorem bindsText {start stop : Nat} (h : IsAhead tree body d start)
    (hfilled : Filled tree d start) (hrun : Token.TextRun body start stop)
    (hends : Token.EndsText body stop)
    (hbinds : d.Binds .text ⟨some ⟨start, stop⟩, none, none, none, none⟩ d') :
    IsAhead tree body d' stop := by
  obtain ⟨c, text, hin', hc⟩ := hrun.exists_char
  obtain ⟨b, position, rest, hsound, hbuilds, hin, hahead⟩ := h
  obtain rfl : c :: text = rest := hin'.rest_eq hin rfl
  obtain ⟨raw, rest, content, b', -, hraw, hfree, hrest, hcontent, rfl, hsound', hextends,
    hbuilds'⟩ := hbuilds.of_text hsound hc
  rw [hraw] at hin
  have hstop : stop = start + Text.byteSize raw :=
    hrun.stop_eq hends hin ⟨_, _, content, hcontent⟩ hfree hrest
  refine ⟨_, _, rest, hsound', hbuilds', Cursor.Moves.isIn ⟨rfl, hstop⟩ hin,
    .of_binds hfilled hahead.frames hahead.rootSeen ?_ hbinds⟩
  rw [hahead.current, (Builder.adds_appendLeaf b _).children_eq hsound, if_pos hahead.parent,
    hahead.parent, List.length_append]
  rfl

/-- If the mark at the head of the body is followed by markup, the replay gets ahead. -/
theorem of_mark {start stop position : Nat} {text : List Char} (hfilled : Filled tree d start)
    (hsound : b.Sound) (hbuilds : b.Builds position ('<' :: text) tree) (hframes : b.frames = [])
    (hseen : b.rootSeen = false)
    (hcurrent : d.current = ⟨Tree.root, (b.tree.children Tree.root).length⟩)
    (hin : Cursor.IsIn ⟨start, Text.byteOrderMark :: '<' :: text⟩ body)
    (hrun : Token.TextRun body start stop) (hends : Token.EndsText body stop)
    (hbinds : d.Binds .text ⟨some ⟨start, stop⟩, none, none, none, none⟩ d') :
    IsAhead tree body d' stop := by
  -- The mark is all of the run, and no node was built from it.
  have hreadable : IsReadable (Entity.lookup []) [Text.byteOrderMark] :=
    IsReadable.nil.cons (by decide)
  have hstop : stop = start + Text.byteSize [Text.byteOrderMark] :=
    hrun.stop_eq hends hin hreadable (by decide) (by simp)
  exact ⟨b, position, '<' :: text, hsound, hbuilds, Cursor.Moves.isIn ⟨rfl, hstop⟩ hin,
    .of_binds hfilled hframes hseen hcurrent hbinds⟩

/-- A document has a root, and the replay would have failed there. -/
theorem not_byteSize (h : IsAhead tree body d (Text.byteSize body)) : False := by
  obtain ⟨b, position, rest, hsound, hbuilds, hin, hahead⟩ := h
  have hend : Cursor.IsIn ⟨Text.byteSize body, []⟩ body := ⟨body, (List.append_nil _).symm, rfl⟩
  obtain rfl : rest = [] := hin.rest_eq hend rfl
  have hseen := hahead.rootSeen
  rw [hbuilds.of_nil.2.1] at hseen
  cases hseen

end IsAhead

/-! ## All tokens -/

/-- A mark in front of a run of text makes it one run for the scan. -/
theorem isReadable_mark_append {entity? : List Char → Option (List Char)} {mark raw : List Char}
    (hmark : mark = [] ∨ mark = [Text.byteOrderMark]) (hraw : IsReadable entity? raw)
    (hfree : '<' ∉ raw) : IsReadable entity? (mark ++ raw) ∧ '<' ∉ mark ++ raw := by
  rcases hmark with rfl | rfl
  · exact ⟨hraw, hfree⟩
  · refine ⟨hraw.cons (by decide), ?_⟩
    rw [List.mem_append, not_or]
    exact ⟨by decide, hfree⟩

/-- How the replay stands to the building when it is at an offset of the body. -/
inductive Follows (tree : Tree) (body : List Char) (entities : List Entity) (d : Binder)
    (offset : Nat) : Prop
  /-- They are at the same place, but for a mark that was skipped. -/
  | inStep {b : Builder} {position : Nat} {rest : List Char} (mark : List Char)
    (hsound : b.Sound) (hbuilds : b.Builds position rest tree)
    (hin : Cursor.IsIn ⟨offset, mark ++ rest⟩ body)
    (hmark : mark = [] ∨ ((body.head? = some Text.byteOrderMark ∧ mark = [Text.byteOrderMark]) ∧
      b.tree.size = 1) ∧ b.frames = [] ∧ b.rootSeen = false)
    (hsynced : Synced tree body entities b d)
  | ahead {b : Builder} {position : Nat} {rest : List Char} (hsound : b.Sound)
    (hbuilds : b.Builds position rest tree) (hin : Cursor.IsIn ⟨offset, rest⟩ body)
    (hahead : Ahead tree b d)

namespace Follows

theorem takes {token : Token} (h : Follows tree body entities d token.start)
    (hfilled : Filled tree d token.start) (hlinked : tree.Linked) (howned : tree.Owned)
    (hcontained : tree.Contained entities) (htoken : token.Scanned body)
    (htakes : d.Takes token d') : Follows tree body entities d' token.stop := by
  cases h with
  | @inStep b position rest mark hsound hbuilds hin hmark hsynced =>
    obtain ⟨text, next, hin', hmarkup, hraw⟩ := htoken.exists_markup (form_ne_text_of_takes htakes)
    have hnext : Cursor.IsIn ⟨token.stop, next.rest⟩ body := Cursor.Moves.isIn ⟨hraw, rfl⟩ hin'
    have heq : '<' :: text = mark ++ rest := hin'.rest_eq hin rfl
    -- A mark would be text, and this is markup.
    obtain rfl : mark = [] := by
      rcases hmark with rfl | ⟨⟨⟨-, rfl⟩, -⟩, -⟩
      · rfl
      · cases (List.cons.inj heq).1
    obtain rfl : '<' :: text = rest := heq
    obtain ⟨form, rest, raw, b', hcut, htake, hsound', hextends, hbuilds'⟩ :=
      hbuilds.of_markup hsound
    obtain ⟨rfl, hsynced'⟩ := hsynced.takes hfilled hlinked howned hcontained hsound hcut htake
      hextends htoken hmarkup hraw htakes
    exact .inStep [] hsound' hbuilds' hnext (Or.inl rfl) hsynced'
  | ahead hsound hbuilds hin hahead =>
    obtain ⟨b', _, _, hsound', hbuilds', hin', hahead'⟩ :=
      IsAhead.takes ⟨_, _, _, hsound, hbuilds, hin, hahead⟩ htoken htakes
    exact .ahead hsound' hbuilds' hin' hahead'

theorem text {start stop position : Nat} {c : Char} {mark text : List Char}
    (hsynced : Synced tree body entities b d) (hfilled : Filled tree d start)
    (hlinked : tree.Linked) (howned : tree.Owned) (hsound : b.Sound)
    (hbuilds : b.Builds position (c :: text) tree) (hc : c ≠ '<')
    (hin : Cursor.IsIn ⟨start, mark ++ c :: text⟩ body)
    (hmark : mark = [] ∨
      (body.head? = some Text.byteOrderMark ∧ mark = [Text.byteOrderMark]) ∧ b.tree.size = 1)
    (hrun : Token.TextRun body start stop) (hends : Token.EndsText body stop)
    (hbinds : d.Binds .text ⟨some ⟨start, stop⟩, none, none, none, none⟩ d') :
    Follows tree body entities d' stop := by
  obtain ⟨raw, rest, content, b', -, hraw, hfree, hrest, hcontent, rfl, hsound', hextends,
    hbuilds'⟩ := hbuilds.of_text hsound hc
  rw [hraw, ← List.append_assoc] at hin
  have hreadable : IsReadable (Entity.lookup b.entities) raw := ⟨_, _, content, hcontent⟩
  obtain ⟨hreadable', hfree'⟩ :=
    isReadable_mark_append (hmark.imp_right fun h ↦ h.1.2) hreadable hfree
  have hstop : stop = start + Text.byteSize (mark ++ raw) :=
    hrun.stop_eq hends hin hreadable' hfree' hrest
  have hmoves : Cursor.Moves ⟨start, mark ++ raw ++ rest⟩ (mark ++ raw) ⟨stop, rest⟩ :=
    ⟨rfl, hstop⟩
  exact .inStep [] hsound' hbuilds' (hmoves.isIn hin) (Or.inl rfl)
    (hsynced.text hfilled hlinked howned hsound hextends (hmoves.stands hin) hmark hcontent hbinds)

theorem bindsText {start stop : Nat} (h : Follows tree body entities d start)
    (hfilled : Filled tree d start) (hlinked : tree.Linked) (howned : tree.Owned)
    (hrun : Token.TextRun body start stop) (hends : Token.EndsText body stop)
    (hbinds : d.Binds .text ⟨some ⟨start, stop⟩, none, none, none, none⟩ d') :
    Follows tree body entities d' stop := by
  obtain ⟨c, text, hin', hc⟩ := hrun.exists_char
  cases h with
  | @inStep b position rest mark hsound hbuilds hin hmark hsynced =>
    have heq : c :: text = mark ++ rest := hin'.rest_eq hin rfl
    rcases hmark with rfl | ⟨hhead, hframes, hseen⟩
    · obtain rfl : c :: text = rest := heq
      exact Follows.text hsynced hfilled hlinked howned hsound hbuilds hc hin (Or.inl rfl) hrun
        hends hbinds
    · cases rest with
      | nil =>
        rw [hbuilds.of_nil.2.1] at hseen
        cases hseen
      | cons c' text' =>
        by_cases hc' : c' = '<'
        · subst hc'
          obtain ⟨⟨-, rfl⟩, -⟩ := hhead
          have hcurrent := hsynced.current
          rw [Builder.parent, hframes] at hcurrent
          obtain ⟨b', _, _, hsound', hbuilds', hin', hahead⟩ :=
            IsAhead.of_mark hfilled hsound hbuilds hframes hseen hcurrent hin hrun hends hbinds
          exact .ahead hsound' hbuilds' hin' hahead
        · exact Follows.text hsynced hfilled hlinked howned hsound hbuilds hc' hin (Or.inr hhead)
            hrun hends hbinds
  | ahead hsound hbuilds hin hahead =>
    obtain ⟨b', _, _, hsound', hbuilds', hin', hahead'⟩ :=
      IsAhead.bindsText ⟨_, _, _, hsound, hbuilds, hin, hahead⟩ hfilled hrun hends hbinds
    exact .ahead hsound' hbuilds' hin' hahead'

theorem initial {mode : NamespaceMode} (h : Tree.build mode body = .ok tree) :
    Follows tree body entities (initial tree) 0 := by
  have hbuilds := Builder.Builds.of_build h
  have hsynced := synced_initial tree body entities mode
  split at hbuilds
  · rename_i hhead
    obtain ⟨rest, rfl⟩ := List.head?_eq_some_iff.1 hhead
    exact .inStep [Text.byteOrderMark] (Builder.sound_initial mode) hbuilds ⟨[], rfl, rfl⟩
      (Or.inr ⟨⟨⟨rfl, rfl⟩, rfl⟩, rfl, rfl⟩) hsynced
  · exact .inStep [] (Builder.sound_initial mode) hbuilds ⟨[], rfl, rfl⟩ (Or.inl rfl)
      hsynced

theorem of_end (h : Follows tree body entities d (Text.byteSize body)) :
    ∃ b, b.tree = tree ∧ Synced tree body entities b d := by
  have hend : Cursor.IsIn ⟨Text.byteSize body, []⟩ body := ⟨body, (List.append_nil _).symm, rfl⟩
  cases h with
  | @inStep b position rest mark hsound hbuilds hin hmark hsynced =>
    have hrest : mark ++ rest = [] := hin.rest_eq hend rfl
    rw [(List.append_eq_nil_iff.1 hrest).2] at hbuilds
    exact ⟨b, hbuilds.of_nil.2.2, hsynced⟩
  | ahead hsound hbuilds hin hahead =>
    exact (IsAhead.not_byteSize ⟨_, _, _, hsound, hbuilds, hin, hahead⟩).elim

end Follows

/-- The replay follows the building throughout. -/
theorem invariant_follows (hlinked : tree.Linked) (howned : tree.Owned)
    (hcontained : tree.Contained entities) (tokens : List Token) :
    Invariant tokens body fun d offset ↦
      Filled tree d offset ∧ Follows tree body entities d offset :=
  have hfilled := invariant_filled hlinked howned tokens body
  { ready := fun h ↦ hfilled.ready h.1
    bindsText := fun h hrun hends hbinds ↦ ⟨hfilled.bindsText h.1 hrun hends hbinds,
      h.2.bindsText h.1 hlinked howned hrun hends hbinds⟩
    takes := fun h hmem htoken htakes ↦ ⟨hfilled.takes h.1 hmem htoken htakes,
      h.2.takes h.1 hlinked howned hcontained htoken htakes⟩ }

end Binder

namespace Document

variable {tree : Tree} {mode : NamespaceMode} {body : List Char} {entities : List Entity}
  {spans : TreeSpans}

/-- After a replay that gets to the end every node shows what it is, and an element with an empty
tag has no children. -/
theorem shows_of_bind (hbuild : Tree.build mode body = .ok tree) (hlinked : tree.Linked)
    (howned : tree.Owned) (hcontained : tree.Contained entities)
    (h : Document.bind tree body = .ok spans) :
    (∀ {id kind}, tree.kind? id = some kind → spans.Shows tree body entities id kind) ∧
      ∀ {id span}, (spans.ranges id).opening = some span →
        (spans.ranges id).whole = some span → tree.children id = [] := by
  obtain ⟨last, ⟨hfilled, hfollows⟩, hfinishes⟩ := exists_last_of_bind
    (Binder.invariant_follows hlinked howned hcontained _) (fun h ↦ h.1.root)
    ⟨Binder.filled_initial tree, .initial hbuild⟩ h
  obtain ⟨hgrows, whole, hupdate⟩ := hfilled.exists_ranges_eq hlinked hfinishes
  obtain ⟨b, rfl, hsynced⟩ := hfollows.of_end
  refine ⟨fun hkind ↦ (hsynced.shows hkind).grow hgrows, fun {id span} hopening hwhole ↦ ?_⟩
  by_cases hid : id = Tree.root
  · rw [hid, hupdate, Function.update_self] at hopening
    cases hopening
  · rw [hupdate, Function.update_of_ne hid] at hopening hwhole
    exact hsynced.childless hopening hwhole

end Document

end XmlInspect
