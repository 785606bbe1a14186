import XmlInspect.Config.Params
import XmlInspect.File
import XmlInspect.Proofs.WrittenTree
import XmlInspect.Report.Basic

/-!
# Reports are read back

A report that was written as XML can be parsed, and all that was reported is found in the tree: the
files in their order, for each one what kept it from being analysed and what was found in it, and
for each issue its rule, its message, its place or that it has none, and the places that support it.
The strings may hold anything that a document may hold at all. Only an empty label is lost, since
nothing tells it from no label.

Reading is written down here as a function of its own, which knows names and attributes and nothing
of how a report is laid out.
-/

namespace XmlInspect

open Markup

/-! ## What is in a report -/

/-- The place without a label that is empty. -/
def SecondaryLocation.normalized (location : SecondaryLocation) : SecondaryLocation :=
  { location with label := location.label.filter (· ≠ "") }

/-- The issue without empty labels. -/
def Issue.normalized (issue : Issue) : Issue :=
  { issue with secondary := issue.secondary.map SecondaryLocation.normalized }

/-- The strings of an issue. -/
def Issue.texts (issue : Issue) : List String :=
  issue.rule :: issue.message :: issue.secondary.filterMap (·.label)

/-- The report without empty labels. -/
def FileReport.normalized (report : FileReport) : FileReport :=
  { report with issues := report.issues.map Issue.normalized }

/-- The strings of a report. -/
def FileReport.texts (report : FileReport) : List String :=
  report.uri :: report.errors ++ report.issues.flatMap Issue.texts

namespace Report

open XmlInspect.Tree (Builder)

/-! ## Building a report -/

/-- The declaration itself. -/
def declarationText : List Char := "<?xml version=\"1.0\" encoding=\"UTF-8\"?>".toList

private theorem assigns (key value after : List Char) (hkey : Text.IsName key)
    (hvalue : '"' ∉ value) : Text.Assigns (key ++ '=' :: '"' :: (value ++ '"' :: after)) after :=
  ⟨key, [], [], value, '"', hkey, by simp, by simp, Or.inl rfl, hvalue, by simp⟩

private theorem isDeclared_declarationText (rest : List Char) :
    Text.IsDeclared (declarationText ++ rest) := by
  intro _
  have hlt : ∀ front, 2 < Text.byteSize front →
      Text.byteSize rest + 2 < Text.byteSize (front ++ rest) := fun front hfront ↦ by
    rw [Text.byteSize_append]
    omega
  have hstop : Text.byteSize ("?>".toList ++ rest) = Text.byteSize rest + 2 := by
    rw [Text.byteSize_append, Nat.add_comm]
    rfl
  refine ⟨" version=\"1.0\" encoding=\"UTF-8\"".toList, rest, rfl, ?_⟩
  refine .next ?_ (assigns "version".toList "1.0".toList _ (by decide) (by decide))
    (.next ?_ (assigns "encoding".toList "UTF-8".toList _ (by decide) (by decide)) (.stop ?_))
  · exact hlt "version=\"1.0\" encoding=\"UTF-8\"?>".toList (by decide)
  · exact hlt "encoding=\"UTF-8\"?>".toList (by decide)
  · exact Nat.le_of_eq hstop

private theorem cutAll_declarationText (rest : List Char) :
    Piece.cutAll 0 (declarationText ++ rest) =
      (⟨0, declarationText, .declaration⟩ ::
          (Piece.cutAll (Text.byteSize declarationText) rest).1,
        (Piece.cutAll (Text.byteSize declarationText) rest).2) := by
  have hcut : Piece.cutFirst '<' (declarationText.tail ++ rest) = .ok (.declaration, rest) := rfl
  have hraw : '<' :: (declarationText.tail ++ rest) = declarationText ++ rest := rfl
  rw [← hraw, Piece.cutAll_cons hcut hraw, Nat.zero_add]

private theorem build_of_runs {text : List Char} {b : Builder}
    (hruns : (Builder.initial .aware).Runs text [] b) (hframes : b.frames = [])
    (hseen : b.rootSeen = true) :
    Tree.build .aware (declarationText ++ text) = .ok b.tree ∧
      Text.Scannable (declarationText ++ text) := by
  obtain ⟨pieces, hcut, hrun, hplain⟩ := hruns (Text.byteSize declarationText)
  have hcutAll := cutAll_declarationText text
  rw [List.append_nil] at hcut
  rw [hcut, Piece.cutAll] at hcutAll
  have hfinish : b.finish = .ok b.tree := by rw [Builder.finish, hframes, hseen, if_pos rfl]
  have hhead : (declarationText ++ text).head? ≠ some Text.byteOrderMark := by
    intro hmark
    cases hmark
  have htake : (Builder.initial .aware).take ⟨0, declarationText, .declaration⟩ =
      .ok (.initial .aware) := rfl
  constructor
  · rw [Tree.build, if_neg hhead, hcutAll]
    refine bind_eq_ok_iff.2 ⟨b, foldlM_cons_eq_ok_iff.2 ⟨_, htake, ?_⟩, ?_⟩
    · rw [List.append_nil]
      exact hrun
    · exact Builder.reportAt_eq_ok_iff.2 hfinish
  · refine ⟨?_, isDeclared_declarationText text, ?_⟩
    · rintro ⟨rest, hmark⟩
      apply hhead
      rw [← hmark]
      rfl
    · rw [if_neg hhead, hcutAll, List.append_nil]
      exact List.forall_mem_cons.2 ⟨trivial, hplain⟩

/-- A written report is the declaration, blanks and the outermost element. -/
theorem exists_blanks {indent : Indent} (hindent : indent.IsBlank) (element : Element) :
    ∃ blanks, (∀ c ∈ blanks, Text.isXmlBlank c = true) ∧
      declaration indent ++ element.write indent 0 =
        declarationText ++ (blanks ++ element.bare indent 0) := by
  have hdeclaration : declaration indent =
      declarationText ++ if indent.isSome then ['\n'] else [] := rfl
  generalize declarationText = front at hdeclaration ⊢
  refine ⟨(if indent.isSome then ['\n'] else []) ++ lineBreak indent 0, ?_, ?_⟩
  · refine List.forall_mem_append.2 ⟨?_, isXmlBlank_of_mem_lineBreak hindent 0⟩
    cases indent with
    | none => exact fun _ hc ↦ absurd hc List.not_mem_nil
    | some unit => exact List.forall_mem_singleton.2 rfl
  · rw [hdeclaration, Element.write_eq, List.append_assoc, List.append_assoc]

private theorem exists_build {indent : Indent} {element : Element} (hindent : indent.IsBlank)
    (hproper : element.Proper) :
    ∃ b : Builder, Tree.build .aware (declaration indent ++ element.write indent 0) = .ok b.tree ∧
      Text.Scannable (declaration indent ++ element.write indent 0) ∧ b.Ready ∧
      (Tree.empty .aware).Grows b.tree Tree.root [element] := by
  obtain ⟨blanks, hblanks, htext⟩ := exists_blanks hindent element
  rw [htext]
  -- The blanks, then the element, from the state in which the declaration leaves building.
  have hruns₁ : (Builder.initial .aware).Runs blanks (element.bare indent 0 ++ []) _ :=
    runs_blanks hblanks (Element.head?_bare element indent 0 [])
  have hready₁ := Builder.ready_initial.addText hruns₁
  have hgrows₁ := Builder.grows_addText Builder.ready_initial (String.ofList blanks)
  have hframes₁ := Builder.frames_addText (.initial .aware) (String.ofList blanks)
  obtain ⟨b, hruns₂, hready, hframes, hseen, hgrows₂⟩ := hproper.builds hindent 0 _ [] hready₁
    fun _ ↦ Builder.rootSeen_addText _ _
  rw [Builder.parent_congr hframes₁] at hgrows₂
  have hgrows := hgrows₁.trans hgrows₂ Builder.ready_initial.sound.parent_lt hready₁.sound.linked
    hready.sound.linked
  obtain ⟨hbuild, hscannable⟩ := build_of_runs (hruns₁.trans hruns₂) (hframes.trans hframes₁) hseen
  exact ⟨b, hbuild, hscannable, hready, hgrows⟩

/-! ## Reading a report -/

section Reading

variable (tree : Tree) (id : NodeId)

/-- The elements of a name in a node. -/
def childrenNamed (name : String) : List NodeId :=
  (tree.children id).filter fun child ↦ (tree.name? child).any (·.written == name)

/-- The value of an attribute. -/
def value? (key : String) : Option String :=
  ((tree.attributeNamed? id key).bind tree.attr?).map (·.value)

def number? (key : String) : Option Nat := (value? tree id key).bind (readDigits? ·.toList)

/-- The range that attributes give, if all of them are there and what they give is one. -/
def range? : Option TextRange := do
  let start : Position := ⟨← number? tree id "line", ← number? tree id "column"⟩
  let stop : Position := ⟨← number? tree id "endLine", ← number? tree id "endColumn"⟩
  (TextRange.between start stop).toOption

/-- Reads a supporting place, which has no label if there is no text. -/
def readLocation? : Option SecondaryLocation := do
  return ⟨← range? tree id, (some (tree.textContent id)).filter (· ≠ "")⟩

/-- Reads an issue, which has just one message. -/
def readIssue? : Option Issue := do
  let [message] := childrenNamed tree id "message" | none
  return {
    rule := ← value? tree id "rule"
    message := tree.textContent message
    range := range? tree id
    secondary := ← (childrenNamed tree id "location").mapM (readLocation? tree) }

def readFile? : Option FileReport := do
  return {
    uri := ← value? tree id "uri"
    issues := ← (childrenNamed tree id "issue").mapM (readIssue? tree)
    errors := (childrenNamed tree id "error").map tree.textContent }

/-- Reads a report back from the tree of a document. -/
def read? : Option (List FileReport) := do
  let id ← tree.rootElement?
  guard ((tree.name? id).any (·.written == programName))
  (childrenNamed tree id "file").mapM (readFile? tree)

end Reading

section Holds

variable {tree : Tree} {id : NodeId} {n : Nat} {element : Element} {elements : List Element}
  {name content : String} {attributes : List (String × String)}

theorem name?_of_holds (h : tree.Holds n id element) :
    tree.name? id = some (Builder.plainName element.name) := by
  obtain ⟨attributes, ids, hkind, -⟩ := h.exists_labelled
  rw [Tree.name?, hkind]

/-- The elements of a name in a node are the written ones of that name. -/
theorem childrenNamed_of_holds
    (h : List.Forall₂ (tree.Holds n) ((tree.children id).filter tree.isElement) elements)
    (name : String) :
    List.Forall₂ (tree.Holds n) (childrenNamed tree id name)
      (elements.filter (·.name == name)) := by
  have hnamed : childrenNamed tree id name = ((tree.children id).filter tree.isElement).filter
      fun child ↦ (tree.name? child).any (·.written == name) := by
    rw [childrenNamed, List.filter_filter]
    refine List.filter_congr fun child _ ↦ ?_
    cases hname : tree.name? child with
    | none => rfl
    | some name => simp [Tree.isElement, hname]
  rw [hnamed]
  refine List.rel_filter (fun child element hholds ↦ ?_) h
  dsimp only
  rw [name?_of_holds hholds]
  exact Iff.rfl

theorem value?_of_labelled (h : tree.Labelled id name attributes) (key : String) :
    value? tree id key = attributes.lookup key := by
  obtain ⟨ids, hkind, hattrs⟩ := h
  have hids : tree.attributesOf id = ids := by rw [Tree.attributesOf, hkind]
  rw [value?, Tree.attributeNamed?, hids]
  clear hkind hids
  induction hattrs with
  | nil => rfl
  | @cons a attr ids attributes hattr _ ih =>
    obtain ⟨written, value⟩ := attr
    have hwritten : tree.writtenAttr? a = some written := by
      rw [Tree.writtenAttr?, hattr]
      rfl
    rw [List.find?_cons, hwritten, List.lookup_cons]
    by_cases heq : key = written
    · simp [heq, hattr]
    · have hskip : (some written == some key) = false := by simpa using Ne.symm heq
      rw [hskip, beq_eq_false_iff_ne.2 heq]
      exact ih

private theorem holdsText_empty (h : tree.children id = []) : tree.HoldsText id "" := by
  rw [Tree.HoldsText, if_pos rfl]
  exact h

private theorem children_eq_nil_of_text (hlinked : tree.Linked)
    (h : tree.kind? id = some (.text content)) : tree.children id = [] := by
  by_contra hne
  rcases hlinked.isElement hne with rfl | helement
  · rw [hlinked.kind?_root] at h
    cases h
  · rw [Tree.isElement_of_kind? h] at helement
    cases helement

theorem textContent_of_holdsText (hlinked : tree.Linked)
    (hlabelled : tree.Labelled id name attributes) (h : tree.HoldsText id content) :
    tree.textContent id = content := by
  obtain ⟨ids, hkind, -⟩ := hlabelled
  obtain ⟨fuel, hfuel⟩ := Nat.exists_eq_succ_of_ne_zero
    (Nat.ne_of_gt (Nat.lt_of_le_of_lt (Nat.zero_le id) (Tree.lt_size_of_kind? hkind)))
  rw [Tree.textContent, hkind]
  dsimp only
  rw [Tree.descendants, hfuel]
  unfold Tree.HoldsText at h
  split at h
  · rename_i hempty
    rw [h, hempty]
    rfl
  · obtain ⟨t, ht, htext⟩ := h
    have hvisit : tree.visit fuel [] = [] := by cases fuel <;> rfl
    rw [ht, Tree.visit, children_eq_nil_of_text hlinked htext, List.append_nil, hvisit,
      List.map_singleton, Tree.ownText, htext]
    simp

theorem textContent_of_holds (hlinked : tree.Linked)
    (h : tree.Holds n id (.text name attributes content)) : tree.textContent id = content := by
  cases h with
  | text _ hlabelled htext => exact textContent_of_holdsText hlinked hlabelled htext

private theorem readDigits?_toString (n : Nat) : readDigits? (toString n).toList = some n := by
  have hall : (Nat.toDigits 10 n).all Char.isDigit = true :=
    List.all_eq_true.2 fun c hc ↦ Nat.isDigit_of_mem_toDigits (by decide) (by decide) hc
  have hvalue : (Nat.toDigits 10 n).foldl (fun n c ↦ 10 * n + (c.toNat - '0'.toNat)) 0 = n := by
    rw [← Nat.ofDigitChars_eq_foldl, Nat.ofDigitChars_ten_toDigits]
  rw [Nat.toString_eq_ofList_toDigits, String.toList_ofList]
  unfold readDigits?
  split
  · exact absurd ‹_› Nat.toDigits_ne_nil
  · rw [if_pos hall, hvalue]

theorem range?_of_lookup {range : TextRange}
    (h : ∀ attr ∈ rangeAttributes range, value? tree id attr.1 = some attr.2) :
    range? tree id = some range := by
  have hnumber : ∀ {key : String} {n : Nat}, (key, toString n) ∈ rangeAttributes range →
      number? tree id key = some n := by
    intro key n hmem
    rw [number?, h _ hmem]
    exact readDigits?_toString n
  have hbetween : TextRange.between range.start range.stop = .ok range :=
    TextRange.between_eq_ok_iff.2 ⟨rfl, rfl⟩
  rw [range?, hnumber (n := range.start.line) (by simp [rangeAttributes]),
    hnumber (n := range.start.column) (by simp [rangeAttributes]),
    hnumber (n := range.stop.line) (by simp [rangeAttributes]),
    hnumber (n := range.stop.column) (by simp [rangeAttributes])]
  exact congrArg Except.toOption hbetween

/-- Elements that are read one by one are read one after the other. -/
theorem mapM_of_holds {α β : Type} {write : α → Element} {read : NodeId → Option β} {value : α → β}
    {ids : List NodeId} {xs : List α}
    (hread : ∀ x id, tree.Holds n id (write x) → read id = some (value x))
    (h : List.Forall₂ (tree.Holds n) ids (xs.map write)) : ids.mapM read = some (xs.map value) := by
  rw [List.forall₂_map_right_iff] at h
  induction h with
  | nil => rfl
  | cons hx _ ih => rw [List.mapM_cons, hread _ _ hx, ih]; rfl

end Holds

/-! ## Reports in a tree -/

section Elements

variable {tree : Tree} {id : NodeId} {n : Nat}

@[simp] theorem name_locationElement (location : SecondaryLocation) :
    (locationElement location).name = "location" := by
  unfold locationElement
  split <;> rfl

@[simp] theorem name_issueElement (issue : Issue) : (issueElement issue).name = "issue" := rfl

@[simp] theorem name_fileElement (report : FileReport) :
    (fileElement report).name = "file" := by
  unfold fileElement
  split <;> rfl

theorem filter_map_of_name {α : Type} {write : α → Element} {name : String}
    (h : ∀ x, (write x).name = name) (key : String) (xs : List α) :
    (xs.map write).filter (·.name == key) = if name = key then xs.map write else [] := by
  split
  · rename_i heq
    refine List.filter_eq_self.2 (List.forall_mem_map.2 fun x _ ↦ ?_)
    rw [h x, heq, beq_self_eq_true]
  · rename_i hne
    refine List.filter_eq_nil_iff.2 (List.forall_mem_map.2 fun x _ ↦ ?_)
    rw [h x, beq_iff_eq]
    exact hne

private theorem readLocation?_of_holds (hlinked : tree.Linked) (location : SecondaryLocation)
    (id : NodeId) (h : tree.Holds n id (locationElement location)) :
    readLocation? tree id = some location.normalized := by
  have hread : ∀ {content : String}, tree.Labelled id "location" (rangeAttributes location.range) →
      tree.HoldsText id content →
      readLocation? tree id = some ⟨location.range, (some content).filter (· ≠ "")⟩ := by
    intro content hlabelled htext
    have hrange : range? tree id = some location.range :=
      range?_of_lookup (by simp [value?_of_labelled hlabelled, rangeAttributes, List.lookup_cons])
    rw [readLocation?, hrange, textContent_of_holdsText hlinked hlabelled htext]
    rfl
  unfold locationElement at h
  rw [SecondaryLocation.normalized]
  cases hlabel : location.label with
  | none =>
    rw [hlabel] at h
    cases h with
    | empty _ hlabelled hnil => exact hread hlabelled (holdsText_empty hnil)
  | some label =>
    rw [hlabel] at h
    cases h with
    | text _ hlabelled htext => exact hread hlabelled htext

private theorem range?_of_issue {issue : Issue} (h : tree.Labelled id "issue"
    (("rule", issue.rule) :: (issue.range.map rangeAttributes).getD [])) :
    range? tree id = issue.range := by
  cases hissue : issue.range with
  | none =>
    have hline : value? tree id "line" = none := by
      rw [value?_of_labelled h, hissue]
      rfl
    rw [range?, number?, hline]
    rfl
  | some range =>
    rw [hissue] at h
    exact range?_of_lookup (by simp [value?_of_labelled h, rangeAttributes, List.lookup_cons])

private theorem readIssue?_of_holds (hlinked : tree.Linked) (issue : Issue) (id : NodeId)
    (h : tree.Holds n id (issueElement issue)) :
    readIssue? tree id = some issue.normalized := by
  unfold issueElement at h
  cases h with
  | group _ hlabelled hall =>
    have hrule : value? tree id "rule" = some issue.rule := by
      rw [value?_of_labelled hlabelled]
      rfl
    have hmessages := childrenNamed_of_holds hall "message"
    have hlocations := childrenNamed_of_holds hall "location"
    rw [List.filter_cons, filter_map_of_name name_locationElement] at hmessages hlocations
    obtain ⟨message, others, hmessage, hothers, hchildren⟩ :=
      List.forall₂_cons_right_iff.1 hmessages
    obtain rfl := List.forall₂_nil_right_iff.1 hothers
    have hsecondary := mapM_of_holds (readLocation?_of_holds hlinked) hlocations
    rw [readIssue?, hchildren, hrule, range?_of_issue hlabelled, hsecondary]
    dsimp only
    rw [textContent_of_holds hlinked hmessage]
    rfl

/-- In the tree a clean file is like any other. -/
theorem labelled_of_fileElement {report : FileReport}
    (h : tree.Holds n id (fileElement report)) :
    tree.Labelled id "file" [("uri", report.uri)] ∧
      List.Forall₂ (tree.Holds n) ((tree.children id).filter tree.isElement)
        (report.errors.map (.text "error" []) ++ report.issues.map issueElement) := by
  unfold fileElement at h
  split at h
  · rename_i hclean
    obtain ⟨hissues, herrors⟩ : report.issues = [] ∧ report.errors = [] := by
      simpa [FileReport.isClean] using hclean
    cases h with
    | empty _ hlabelled hnil =>
      refine ⟨hlabelled, ?_⟩
      rw [hnil, hissues, herrors]
      exact .nil
  · cases h with
    | group _ hlabelled hall => exact ⟨hlabelled, hall⟩

private theorem readFile?_of_holds (hlinked : tree.Linked) (report : FileReport) (id : NodeId)
    (h : tree.Holds n id (fileElement report)) :
    readFile? tree id = some report.normalized := by
  obtain ⟨hlabelled, hall⟩ := labelled_of_fileElement h
  have huri : value? tree id "uri" = some report.uri := by
    rw [value?_of_labelled hlabelled]
    rfl
  have hname : ∀ error, (Element.text "error" [] error).name = "error" := fun _ ↦ rfl
  have herrors := childrenNamed_of_holds hall "error"
  have hissues := childrenNamed_of_holds hall "issue"
  rw [List.filter_append, filter_map_of_name hname, filter_map_of_name name_issueElement]
    at herrors hissues
  rw [if_pos rfl, if_neg (by decide), List.append_nil] at herrors
  have hcontents : (childrenNamed tree id "error").map tree.textContent = report.errors := by
    rw [← List.forall₂_eq_eq_eq, List.forall₂_map_left_iff]
    exact (List.forall₂_map_right_iff.1 herrors).imp fun _ _ ↦ textContent_of_holds hlinked
  rw [readFile?, huri, mapM_of_holds (readIssue?_of_holds hlinked) hissues, hcontents]
  rfl

/-- A tree that holds the outermost element of a report holds the report. -/
theorem read?_of_grows {style : Style} {reports : List FileReport} (hlinked : tree.Linked)
    (h : (Tree.empty .aware).Grows tree Tree.root [rootElement style reports]) :
    read? tree = some ((listed style reports).map FileReport.normalized) := by
  obtain ⟨added, hadded, hholds⟩ := h.exists_added
  have hchildren : tree.children Tree.root = added := hadded
  obtain ⟨id, others, hid, hothers, hfilter⟩ := List.forall₂_cons_right_iff.1 hholds
  have hroot : tree.rootElement? = some id := by
    rw [Tree.rootElement?, hchildren, ← List.head?_filter, hfilter]
    rfl
  have hname := name?_of_holds hid
  unfold rootElement at hid
  cases hid with
  | group _ _ hall =>
    have hfiles := childrenNamed_of_holds hall "file"
    rw [filter_map_of_name name_fileElement, if_pos rfl] at hfiles
    rw [read?, hroot]
    dsimp only [bind, Option.bind]
    rw [hname, mapM_of_holds (readFile?_of_holds hlinked) hfiles]
    rfl

end Elements

/-- Files are left out only if there is nothing to say about them. -/
theorem listed_eq (style : Style) (reports : List FileReport) :
    listed style reports = reports.filter fun report ↦
      style.includesClean ∨ report.issues ≠ [] ∨ report.errors ≠ [] := by
  unfold listed
  split
  · rename_i hincludes
    simp [hincludes]
  · rename_i hincludes
    refine List.filter_congr fun report _ ↦ ?_
    rw [Bool.eq_iff_iff]
    simp [FileReport.isClean, hincludes]

/-! ## Reports are proper -/

section Proper

variable {attributes : List (String × String)}

/-- Whether keys are different words, none of which declares a namespace. -/
def areKeys (keys : List String) : Bool :=
  keys.all (fun key ↦ isWord key && key != "xmlns") && decide keys.Nodup

theorem properAttributes_of_areKeys (keys : List String) (hmap : attributes.map Prod.fst = keys)
    (h : areKeys keys = true) (hchars : ∀ attr ∈ attributes, ∀ c ∈ attr.2.toList, IsXmlChar c) :
    Builder.ProperAttributes attributes := by
  rw [areKeys, ← hmap, Bool.and_eq_true, List.all_map, List.all_eq_true] at h
  have hkeys : ∀ attr ∈ attributes, isWord attr.1 = true ∧ attr.1 ≠ "xmlns" := by
    intro attr hattr
    simpa using h.1 attr hattr
  exact ⟨fun attr hattr ↦ (hkeys attr hattr).1, fun attr hattr ↦ (hkeys attr hattr).2, hchars,
    of_decide_eq_true h.2⟩

private theorem isXmlChar_of_mem_toString {n : Nat} : ∀ c ∈ (toString n).toList, IsXmlChar c := by
  intro c hc
  rw [Nat.toString_eq_ofList_toDigits, String.toList_ofList] at hc
  have hdigit := Nat.isDigit_of_mem_toDigits (by decide) (by decide) hc
  have hbounds : 48 ≤ c.toNat ∧ c.toNat ≤ 57 := by
    simpa [Char.isDigit, UInt32.le_iff_toNat_le] using hdigit
  unfold IsXmlChar
  omega

theorem isXmlChar_rangeAttributes (range : TextRange) :
    ∀ attr ∈ rangeAttributes range, ∀ c ∈ attr.2.toList, IsXmlChar c := by
  simp only [rangeAttributes, List.forall_mem_cons]
  exact ⟨isXmlChar_of_mem_toString, isXmlChar_of_mem_toString, isXmlChar_of_mem_toString,
    isXmlChar_of_mem_toString, nofun⟩

private theorem proper_locationElement {location : SecondaryLocation}
    (h : ∀ label ∈ location.label, ∀ c ∈ label.toList, IsXmlChar c) :
    (locationElement location).Proper := by
  have hattrs : Builder.ProperAttributes (rangeAttributes location.range) :=
    properAttributes_of_areKeys ["line", "column", "endLine", "endColumn"] rfl (by decide)
      (isXmlChar_rangeAttributes location.range)
  unfold locationElement
  split
  · rename_i label hlabel
    exact .text rfl hattrs (h label hlabel)
  · exact .empty rfl hattrs

private theorem proper_issueElement {issue : Issue}
    (h : ∀ text ∈ issue.texts, ∀ c ∈ text.toList, IsXmlChar c) : (issueElement issue).Proper := by
  obtain ⟨hrule, h⟩ := List.forall_mem_cons.1 h
  obtain ⟨hmessage, hlabels⟩ := List.forall_mem_cons.1 h
  refine .group rfl ?_ (List.forall_mem_cons.2 ⟨?_, ?_⟩)
  · cases issue.range with
    | none =>
      exact properAttributes_of_areKeys ["rule"] rfl (by decide) (List.forall_mem_singleton.2 hrule)
    | some range =>
      exact properAttributes_of_areKeys ["rule", "line", "column", "endLine", "endColumn"] rfl
        (by decide) (List.forall_mem_cons.2 ⟨hrule, isXmlChar_rangeAttributes range⟩)
  · exact .text rfl (properAttributes_of_areKeys [] rfl rfl nofun) hmessage
  · refine List.forall_mem_map.2 fun location hlocation ↦ proper_locationElement ?_
    intro label hlabel
    exact hlabels label (List.mem_filterMap.2 ⟨location, hlocation, hlabel⟩)

private theorem proper_fileElement {report : FileReport}
    (h : ∀ text ∈ report.texts, ∀ c ∈ text.toList, IsXmlChar c) : (fileElement report).Proper := by
  obtain ⟨huri, h⟩ := List.forall_mem_cons.1 h
  obtain ⟨herrors, hissues⟩ := List.forall_mem_append.1 h
  have hattrs : Builder.ProperAttributes [("uri", report.uri)] :=
    properAttributes_of_areKeys ["uri"] rfl (by decide) (List.forall_mem_singleton.2 huri)
  unfold fileElement
  split
  · exact .empty rfl hattrs
  · refine .group rfl hattrs (List.forall_mem_append.2 ⟨?_, ?_⟩)
    · refine List.forall_mem_map.2 fun error herror ↦ ?_
      exact .text rfl (properAttributes_of_areKeys [] rfl rfl nofun) (herrors error herror)
    · refine List.forall_mem_map.2 fun issue hissue ↦ proper_issueElement ?_
      intro text htext
      exact hissues text (List.mem_flatMap.2 ⟨issue, hissue, htext⟩)

private theorem proper_rootElement (style : Style) {reports : List FileReport}
    (h : ∀ report ∈ reports, ∀ text ∈ report.texts, ∀ c ∈ text.toList, IsXmlChar c) :
    (rootElement style reports).Proper := by
  have hversion : ∀ c ∈ programVersion.toList, IsXmlChar c := fun c hc ↦
    Tree.isXmlChar_iff.1
      (List.all_eq_true.1 (by decide : programVersion.toList.all Tree.isXmlChar = true) c hc)
  refine .group rfl (properAttributes_of_areKeys ["version"] rfl (by decide)
    (List.forall_mem_singleton.2 hversion)) ?_
  refine List.forall_mem_map.2 fun report hreport ↦ proper_fileElement (h report ?_)
  rw [listed_eq] at hreport
  exact List.mem_of_mem_filter hreport

end Proper

/-! ## Reading back what was written -/

/-- A text that starts with the declaration is all body. -/
theorem body_ofText (uri : String) (text : List Char) :
    (Source.ofText uri (String.ofList (declarationText ++ text))).body =
      declarationText ++ text := by
  rw [Source.ofText, String.toList_ofList]
  rfl

/-- A report that was written is parsed and read back: the files that are listed, with all that was
said about them. -/
theorem exists_parse_write {style : Style} {reports : List FileReport}
    (hindent : style.indent.IsBlank)
    (hchars : ∀ report ∈ reports, ∀ text ∈ report.texts, ∀ c ∈ text.toList, IsXmlChar c)
    (uri : String) :
    ∃ file, XmlFile.parse (.ofText uri (String.ofList (write style reports))) = .ok file ∧
      read? file.document.tree = some ((reports.filter fun report ↦
        style.includesClean ∨ report.issues ≠ [] ∨ report.errors ≠ []).map
          FileReport.normalized) := by
  obtain ⟨b, hbuild, hscannable, hready, hgrows⟩ :=
    exists_build hindent (proper_rootElement style hchars)
  obtain ⟨blanks, -, htext⟩ := exists_blanks hindent (rootElement style reports)
  have hbody : (Source.ofText uri (String.ofList (write style reports))).body =
      write style reports := by
    rw [write, htext]
    exact body_ofText uri _
  -- No document type was declared, so what was built can be replayed.
  have hself : ∀ {id name raw}, b.tree.kind? id = some (.doctype name raw) →
      Text.isSelfContained raw.toList = true := by
    intro id name raw hkind
    have hseen := hready.sound.doctypeSeen hkind
    rw [hready.doctypeSeen] at hseen
    cases hseen
  have hbind := (Document.succeeds_bind_iff_scannable hbuild hself).2 hscannable
  rw [← write, ← hbody] at hbuild hbind
  rcases Document.parse_of_build hbuild with ⟨⟨doc, hparse, htree⟩, -⟩ | ⟨-, hfails⟩
  · refine ⟨⟨_, doc⟩, bind_eq_ok_iff.2 ⟨doc, hparse, rfl⟩, ?_⟩
    rw [htree, ← listed_eq]
    exact read?_of_grows hready.sound.linked hgrows
  · exact absurd hbind hfails

/-- Markup in every string, an empty label beside one of blanks and none at all, an empty message,
and a file that is left out. -/
theorem exists_parse_write_labels :
    let range : TextRange := ⟨⟨2, 0⟩, ⟨13, 1⟩, by decide, by decide⟩
    let indents : List Indent := [none, .tab, .spaces 3]
    let reports : List FileReport := [
      ⟨"a.xml", [], []⟩,
      ⟨"b'<c>.xml", [
        ⟨"r&1", " ", some range, [⟨range, some ""⟩, ⟨range, some "\n\t"⟩, ⟨range, none⟩]⟩,
        ⟨"\"r\"", "", none, []⟩], ["]]>&lt;", ""]⟩]
    (∀ indent ∈ indents, indent.IsBlank) ∧
    (∀ report ∈ reports, ∀ text ∈ report.texts, ∀ c ∈ text.toList, IsXmlChar c) ∧
    ∀ indent ∈ indents, ∃ file,
      XmlFile.parse (.ofText "d.xml" (String.ofList (write ⟨indent, false⟩ reports))) = .ok file ∧
      read? file.document.tree = some [
        ⟨"b'<c>.xml", [
          ⟨"r&1", " ", some range, [⟨range, none⟩, ⟨range, some "\n\t"⟩, ⟨range, none⟩]⟩,
          ⟨"\"r\"", "", none, []⟩], ["]]>&lt;", ""]⟩] := by
  intro range indents reports
  have hindents : ∀ indent ∈ indents, indent.IsBlank := by
    simp only [indents, List.forall_mem_cons]
    exact ⟨Indent.isBlank_none, Indent.isBlank_tab, Indent.isBlank_spaces 3, nofun⟩
  have hall : (reports.flatMap FileReport.texts).all
      (fun text ↦ text.toList.all Tree.isXmlChar) = true := by decide
  have hchars : ∀ report ∈ reports, ∀ text ∈ report.texts, ∀ c ∈ text.toList, IsXmlChar c := by
    intro report hreport text htext c hc
    have htext := List.all_eq_true.1 hall text (List.mem_flatMap.2 ⟨report, hreport, htext⟩)
    exact Tree.isXmlChar_iff.1 (List.all_eq_true.1 htext c hc)
  refine ⟨hindents, hchars, fun indent hindent ↦ ?_⟩
  have hblank : (⟨indent, false⟩ : Style).indent.IsBlank := hindents indent hindent
  exact exists_parse_write hblank hchars "d.xml"

end Report

end XmlInspect
