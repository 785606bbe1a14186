import Mathlib.Data.Nat.Find
import XmlInspect.Check.Layout
import XmlInspect.Proofs.Accounting
import XmlInspect.Proofs.Declaration
import XmlInspect.Proofs.FaultLines

/-!
# Runs of tabs

A run of tabs is as long as it can be: it has no tab before it and none behind it. This says which
runs there are without saying how they are found. While a line is read only one thing is kept, where
the tabs right before the column started, if there are some. That is enough, since at most one run
ends at a column. It has ended when something else comes, or nothing any more.

An issue shows the first runs and counts the others. Its places are in the file, where the mark at
the head takes a column of the first line, while runs are found in the lines of the content.
-/

namespace XmlInspect

namespace TabCheck

/-! ## Runs in a line -/

section

variable (chars : List Char)

/-- The tabs right before a column, of which there may be none, start at another. -/
structure TabsUpTo (start stop : Nat) : Prop where
  le : start ≤ stop
  isTab : ∀ i, start ≤ i → i < stop → chars[i]? = some '\t'
  before : ∀ i, i + 1 = start → chars[i]? ≠ some '\t'

/-- Some tabs in a row, with no further ones before or behind them. -/
structure IsRun (start stop : Nat) : Prop extends TabsUpTo chars start stop where
  lt : start < stop
  behind : chars[stop]? ≠ some '\t'

end

variable {chars rest : List Char} {start stop column i : Nat}

namespace TabsUpTo

theorem unique {other : Nat} (h : TabsUpTo chars start stop) (h' : TabsUpTo chars other stop) :
    start = other := by
  have hle {a b : Nat} (ha : TabsUpTo chars a stop) (hb : TabsUpTo chars b stop) : b ≤ a := by
    refine Nat.le_of_not_lt fun hlt ↦ ?_
    obtain ⟨k, rfl⟩ := Nat.exists_eq_add_of_lt hlt
    exact hb.before (a + k) rfl (ha.isTab _ (Nat.le_add_right a k) hb.le)
  exact Nat.le_antisymm (hle h' h) (hle h h')

theorem succ_of_tab (h : TabsUpTo chars start stop) (htab : chars[stop]? = some '\t') :
    TabsUpTo chars start (stop + 1) := by
  refine ⟨Nat.le_succ_of_le h.le, fun i hlow hhigh ↦ ?_, h.before⟩
  obtain hlt | rfl := Nat.lt_succ_iff_lt_or_eq.1 hhigh
  · exact h.isTab i hlow hlt
  · exact htab

theorem succ_of_not_tab (htab : chars[stop]? ≠ some '\t') :
    TabsUpTo chars (stop + 1) (stop + 1) := by
  refine ⟨Nat.le_refl _, fun i hlow hhigh ↦ absurd hlow (Nat.not_le_of_lt hhigh), ?_⟩
  intro i hi
  rwa [Nat.succ.inj hi]

private theorem exists_start (chars : List Char) (stop : Nat) :
    ∃ start, TabsUpTo chars start stop := by
  induction stop with
  | zero => exact ⟨0, Nat.le_refl 0, nofun, nofun⟩
  | succ stop ih =>
    by_cases htab : chars[stop]? = some '\t'
    · obtain ⟨start, h⟩ := ih
      exact ⟨start, h.succ_of_tab htab⟩
    · exact ⟨stop + 1, succ_of_not_tab htab⟩

end TabsUpTo

private theorem IsRun.stop_le (h : IsRun chars start stop) : stop ≤ chars.length := by
  obtain ⟨k, rfl⟩ := Nat.exists_eq_add_of_lt h.lt
  have htab := h.isTab (start + k) (Nat.le_add_right start k) (Nat.lt_succ_self _)
  exact (List.getElem?_eq_some_iff.1 htab).1

/-- Every tab is in a run. -/
theorem exists_isRun (h : chars[i]? = some '\t') :
    ∃ start stop, IsRun chars start stop ∧ start ≤ i ∧ i < stop := by
  have hends : ∃ stop, i < stop ∧ chars[stop]? ≠ some '\t' :=
    ⟨chars.length, (List.getElem?_eq_some_iff.1 h).1, by simp⟩
  obtain ⟨hlt, hbehind⟩ := Nat.find_spec hends
  obtain ⟨start, hstart⟩ := TabsUpTo.exists_start chars i
  refine ⟨start, Nat.find hends, ⟨⟨(Nat.lt_of_le_of_lt hstart.le hlt).le, fun j hlow hhigh ↦ ?_,
    hstart.before⟩, Nat.lt_of_le_of_lt hstart.le hlt, hbehind⟩, hstart.le, hlt⟩
  rcases Nat.lt_trichotomy j i with hj | rfl | hj
  · exact hstart.isTab j hlow hj
  · exact h
  · exact not_not.1 fun htab ↦ Nat.find_min hends hhigh ⟨hj, htab⟩

/-! ## Finding them -/

variable {open? : Option Nat}

theorem runsFrom_nil (column : Nat) (open? : Option Nat) :
    runsFrom column open? [] = (open?.map (·, column)).toList := by
  cases open? <;> rfl

theorem runsFrom_cons_tab (column : Nat) (open? : Option Nat) (rest : List Char) :
    runsFrom column open? ('\t' :: rest) =
      runsFrom (column + 1) (some (open?.getD column)) rest :=
  if_pos rfl

theorem runsFrom_cons_of_ne {c : Char} (h : c ≠ '\t') (column : Nat) (open? : Option Nat)
    (rest : List Char) : runsFrom column open? (c :: rest) =
      (open?.map (·, column)).toList ++ runsFrom (column + 1) none rest := by
  refine (if_neg h).trans ?_
  cases open? <;> rfl

/-- A line has been read up to a column, and what is still open there are the tabs right before
it. -/
structure Reading (chars : List Char) (column : Nat) (open? : Option Nat) (rest : List Char) :
    Prop where
  drop_eq : chars.drop column = rest
  upTo : TabsUpTo chars (open?.getD column) column
  lt : ∀ start ∈ open?, start < column

namespace Reading

theorem initial (chars : List Char) : Reading chars 0 none chars :=
  ⟨rfl, ⟨Nat.le_refl 0, nofun, nofun⟩, nofun⟩

theorem getElem?_eq (h : Reading chars column open? rest) : chars[column]? = rest.head? := by
  rw [← List.head?_drop, h.drop_eq]

theorem drop_succ_eq (h : Reading chars column open? rest) :
    chars.drop (column + 1) = rest.tail := by
  rw [← List.tail_drop, h.drop_eq]

theorem tab (h : Reading chars column open? ('\t' :: rest)) :
    Reading chars (column + 1) (some (open?.getD column)) rest where
  drop_eq := h.drop_succ_eq
  upTo := h.upTo.succ_of_tab h.getElem?_eq
  lt := by simpa using Nat.lt_succ_of_le h.upTo.le

theorem other {c : Char} (h : Reading chars column open? (c :: rest)) (hc : c ≠ '\t') :
    Reading chars (column + 1) none rest where
  drop_eq := h.drop_succ_eq
  upTo := .succ_of_not_tab (by simpa [h.getElem?_eq] using hc)
  lt := nofun

/-- The run that ends at a column is the one that is open there. -/
theorem mem_open_iff (h : Reading chars column open? rest) (hrest : rest.head? ≠ some '\t') :
    (start, stop) ∈ (open?.map (·, column)).toList ↔ IsRun chars start stop ∧ stop = column := by
  rw [Option.mem_toList, Option.map_eq_some_iff]
  constructor
  · rintro ⟨first, rfl, heq⟩
    cases heq
    exact ⟨⟨h.upTo, h.lt start rfl, h.getElem?_eq ▸ hrest⟩, rfl⟩
  · rintro ⟨hrun, rfl⟩
    have hstart := hrun.unique h.upTo
    cases open? with
    | none => exact absurd hrun.lt (hstart ▸ Nat.lt_irrefl _)
    | some first => exact ⟨first, rfl, congrArg (·, stop) hstart.symm⟩

/-- The runs that are found from a column on are those that do not end before it. The one that is
open there is among them. -/
theorem mem_runsFrom_iff (h : Reading chars column open? rest) :
    (start, stop) ∈ runsFrom column open? rest ↔ IsRun chars start stop ∧ column ≤ stop := by
  induction rest generalizing column open? with
  | nil =>
    rw [runsFrom_nil, h.mem_open_iff nofun]
    refine and_congr_right fun hrun ↦ ⟨Nat.le_of_eq ∘ Eq.symm, Nat.le_antisymm ?_⟩
    exact Nat.le_trans hrun.stop_le (List.drop_eq_nil_iff.1 h.drop_eq)
  | cons c rest ih =>
    by_cases hc : c = '\t'
    · -- No run ends at a tab.
      subst hc
      rw [runsFrom_cons_tab, ih h.tab]
      refine and_congr_right fun hrun ↦ ⟨Nat.le_of_succ_le, fun hle ↦ Nat.lt_of_le_of_ne hle ?_⟩
      rintro rfl
      exact hrun.behind h.getElem?_eq
    · rw [runsFrom_cons_of_ne hc, List.mem_append, h.mem_open_iff (by simpa using hc),
        ih (h.other hc), ← and_or_left]
      refine and_congr_right fun _ ↦ ?_
      rw [Nat.succ_le_iff, ← eq_comm, ← le_iff_eq_or_lt]

theorem pairwise_runsFrom (h : Reading chars column open? rest) :
    (runsFrom column open? rest).Pairwise fun run later ↦ run.2 < later.1 := by
  have hopen (column : Nat) (open? : Option Nat) :
      ((open?.map (·, column)).toList).Pairwise fun run later ↦ run.2 < later.1 := by
    cases open? <;> simp
  induction rest generalizing column open? with
  | nil => exact runsFrom_nil column open? ▸ hopen column open?
  | cons c rest ih =>
    by_cases hc : c = '\t'
    · subst hc
      exact runsFrom_cons_tab column open? rest ▸ ih h.tab
    · rw [runsFrom_cons_of_ne hc]
      refine List.pairwise_append.2 ⟨hopen column open?, ih (h.other hc), ?_⟩
      intro run hrun later hlater
      -- The later run is behind the column, where there is no tab.
      have hcolumn := ((h.mem_open_iff (by simpa using hc)).1 hrun).2
      obtain ⟨hlater, hle⟩ := (h.other hc).mem_runsFrom_iff.1 hlater
      refine Nat.lt_of_not_le fun hstart ↦ hc ?_
      have htab := hlater.isTab column (hcolumn ▸ hstart) hle
      simpa [h.getElem?_eq] using htab

end Reading

/-! ## Runs in a text -/

theorem mem_runs_iff {lines : List (List Char)} {number : Nat} :
    (number, start, stop) ∈ runs lines ↔
      ∃ i chars, number = i + 1 ∧ lines[i]? = some chars ∧ IsRun chars start stop := by
  rw [runs, List.mem_flatMap]
  constructor
  · rintro ⟨⟨chars, i⟩, hline, hrun⟩
    obtain ⟨⟨first, last⟩, hfound, heq⟩ := List.mem_map.1 hrun
    cases heq
    exact ⟨i, chars, rfl, List.mem_zipIdx_iff_getElem?.1 hline,
      ((Reading.initial chars).mem_runsFrom_iff.1 hfound).1⟩
  · rintro ⟨i, chars, rfl, hline, hrun⟩
    refine ⟨(chars, i), List.mem_zipIdx_iff_getElem?.2 hline, List.mem_map.2 ?_⟩
    exact ⟨(start, stop), (Reading.initial chars).mem_runsFrom_iff.2 ⟨hrun, Nat.zero_le stop⟩, rfl⟩

/-- A run is on an earlier line than another, or before it on the same line. -/
def Before (run later : Nat × Nat × Nat) : Prop :=
  run.1 < later.1 ∨ run.1 = later.1 ∧ run.2.2 < later.2.1

theorem pairwise_runs (lines : List (List Char)) : (runs lines).Pairwise Before := by
  rw [runs, List.pairwise_flatMap]
  constructor
  · rintro ⟨chars, i⟩ -
    refine List.pairwise_map.2 ?_
    exact (Reading.initial chars).pairwise_runsFrom.imp fun hlt ↦ .inr ⟨rfl, hlt⟩
  · refine (pairwise_zipIdx lines).imp fun {a b} hlt run hrun later hlater ↦ .inl ?_
    obtain ⟨_, -, rfl⟩ := List.mem_map.1 hrun
    obtain ⟨_, -, rfl⟩ := List.mem_map.1 hlater
    exact Nat.succ_lt_succ hlt

/-! ## Runs in a file -/

section

variable (source : Source) (run : Nat × Nat × Nat)

/-- A range marks a run. -/
def Marks (range : TextRange) : Prop :=
  range.start = ⟨run.1, source.firstColumn run.1 + run.2.1⟩ ∧
    range.stop = ⟨run.1, source.firstColumn run.1 + run.2.2⟩

/-- A character of a run is at a position. -/
def Covers (position : Position) : Prop :=
  position.line = run.1 ∧ source.firstColumn run.1 + run.2.1 ≤ position.column ∧
    position.column < source.firstColumn run.1 + run.2.2

end

variable {source : Source} {run : Nat × Nat × Nat} {position : Position}

private theorem Covers.not_before {later : Nat × Nat × Nat} (h : Covers source run position)
    (h' : Covers source later position) : ¬ Before run later := by
  obtain ⟨hline, -, hhigh⟩ := h
  obtain ⟨hline', hlow, -⟩ := h'
  rintro (hlt | ⟨heq, hlt⟩)
  · exact Nat.ne_of_lt hlt (hline.symm.trans hline')
  · rw [← heq] at hlow
    exact Nat.lt_irrefl _ (Nat.lt_trans (Nat.lt_of_le_of_lt hlow hhigh) (Nat.add_lt_add_left hlt _))

/-- Every tab of a file is in one run. -/
theorem existsUnique_run {k : Nat} (h : (source.mark ++ source.content)[k]? = some '\t') :
    ∃! run, run ∈ runs source.lines ∧
      Covers source run (Text.coordinates (source.mark ++ source.content) k) := by
  obtain ⟨i, j, chars, hline, hj, hplace⟩ :=
    Source.exists_line_of_getElem? h (by decide) (by decide)
  obtain ⟨start, stop, hrun, hlow, hhigh⟩ := exists_isRun hj
  have hmem : (i + 1, start, stop) ∈ runs source.lines :=
    mem_runs_iff.2 ⟨i, chars, rfl, hline, hrun⟩
  have hcovers : Covers source (i + 1, start, stop)
      (Text.coordinates (source.mark ++ source.content) k) := by
    rw [hplace]
    exact ⟨rfl, Nat.add_le_add_left hlow _, Nat.add_lt_add_left hhigh _⟩
  refine ⟨_, ⟨hmem, hcovers⟩, fun other ⟨hmem', hcovers'⟩ ↦ by_contra fun hne ↦ ?_⟩
  rcases rel_or_rel_of_pairwise (pairwise_runs _) hmem' hmem hne with hbefore | hbefore
  · exact hcovers'.not_before hcovers hbefore
  · exact hcovers.not_before hcovers' hbefore

private theorem exists_tab_of_covers (h : run ∈ runs source.lines)
    (hcovers : Covers source run position) : ∃ k, (source.mark ++ source.content)[k]? = some '\t' ∧
      Text.coordinates (source.mark ++ source.content) k = position := by
  obtain ⟨number, start, stop⟩ := run
  obtain ⟨line, column⟩ := position
  obtain ⟨hline, hlow, hhigh⟩ := hcovers
  obtain ⟨i, chars, rfl, hchars, hrun⟩ := mem_runs_iff.1 h
  obtain ⟨j, rfl⟩ := Nat.exists_eq_add_of_le (Nat.le_trans (Nat.le_add_right _ start) hlow)
  obtain rfl : line = i + 1 := hline
  exact Source.exists_getElem?_of_line hchars
    (hrun.isTab j (Nat.le_of_add_le_add_left hlow) (Nat.lt_of_add_lt_add_left hhigh))

/-! ## Issues -/

private theorem messageFor_eq (count : Nat) :
    (21 < count → messageFor count = message ++ s!" ({count - 21} more)") ∧
      (count ≤ 21 → messageFor count = message) := by
  constructor
  · intro hlt
    rw [messageFor, maxLocations, if_pos hlt]
    simp only [toString, String.append_assoc]
  · intro hle
    exact if_neg (Nat.not_lt_of_le hle)

private theorem not_suffix_message (more : Nat) :
    ¬ (s!"({more} more)").toList <:+ message.toList := by
  intro h
  rw [String.toList_append] at h
  exact absurd ((List.suffix_append _ _).trans h) (by decide)

private theorem exists_ranges (source : Source) (count : Nat) :
    ∃ ranges, ((runs source.lines).take count).mapM
        (fun (line, start, stop) ↦ source.lineRange line start stop) = .ok ranges ∧
      List.Forall₂ (Marks source) ((runs source.lines).take count) ranges := by
  refine exists_mapM_eq_ok fun ⟨number, start, stop⟩ hrun ↦ ?_
  obtain ⟨i, chars, rfl, -, hrun⟩ := mem_runs_iff.1 (List.mem_of_mem_take hrun)
  exact source.exists_lineRange_eq (Nat.le_add_left 1 i) hrun.lt

/-- No run makes the search fail, and the issue shows the first of them. -/
theorem issues_eq (source : Source) :
    (runs source.lines = [] ∧ issues source = .ok []) ∨
      ∃ range others, List.Forall₂ (Marks source) ((runs source.lines).take 21) (range :: others) ∧
        issues source = .ok [⟨rule, messageFor (runs source.lines).length, some range,
          others.map (⟨·, none⟩)⟩] := by
  obtain ⟨ranges, hranges, hmarks⟩ := exists_ranges source 21
  cases ranges with
  | nil =>
    refine .inl ⟨?_, bind_eq_ok_iff.2 ⟨[], hranges, rfl⟩⟩
    simpa using List.forall₂_nil_right_iff.1 hmarks
  | cons range others =>
    exact .inr ⟨range, others, hmarks, bind_eq_ok_iff.2 ⟨range :: others, hranges, rfl⟩⟩

private theorem found?_of_issues {file : XmlFile} {found : List Issue}
    (hsource : file.source = source) (h : issues source = .ok found) (settings : Settings) :
    check.found? file settings = some found := by
  have hrun : (check.run file settings).1 = .found found :=
    Check.run_stateless (by simp only [hsource, h])
  rw [Check.found?, hrun]

/-- The issues about the tabs of a file. The runs are those of the lines of its content, and every
tab of the file is in one of them. If there is no run there is no issue, and otherwise there is one.
It shows the first runs, one after the other, and its message counts those that it does not show. -/
theorem found_runs_of_parse {uri : String} {charset : Charset} {text : List Char} {file : XmlFile}
    (h : XmlFile.parse (.ofChars uri charset text) = .ok file) (settings : Settings) :
    let source := Source.ofChars uri charset text
    ∃ runs : List (Nat × Nat × Nat),
      (∀ number start stop, (number, start, stop) ∈ runs ↔
        ∃ i chars, number = i + 1 ∧ source.lines[i]? = some chars ∧ IsRun chars start stop) ∧
      runs.Pairwise Before ∧
      (∀ k, text[k]? = some '\t' →
        ∃! run, run ∈ runs ∧ Covers source run (Text.coordinates text k)) ∧
      (∀ run ∈ runs, ∀ position, Covers source run position →
        ∃ k, text[k]? = some '\t' ∧ Text.coordinates text k = position) ∧
      (runs = [] → check.found? file settings = some []) ∧
      (runs ≠ [] → ∃ issue range others, check.found? file settings = some [issue] ∧
        issue.rule = rule ∧ issue.range = some range ∧
        issue.secondary = others.map (⟨·, none⟩) ∧
        List.Forall₂ (Marks source) (runs.take 21) (range :: others) ∧
        (21 < runs.length → issue.message = message ++ s!" ({runs.length - 21} more)") ∧
        (runs.length ≤ 21 → issue.message = message ∧
          ∀ more : Nat, ¬ (s!"({more} more)").toList <:+ issue.message.toList)) := by
  intro source
  have htext := Source.mark_append_content uri charset text
  have hsource : file.source = source := (XmlFile.parse_eq_ok h).1
  refine ⟨runs source.lines, fun number start stop ↦ mem_runs_iff, pairwise_runs source.lines,
    fun k hk ↦ ?_, fun run hrun position hcovers ↦ ?_, fun hnil ↦ ?_, fun hne ↦ ?_⟩
  · rw [← htext] at hk ⊢
    exact existsUnique_run hk
  · rw [← htext]
    exact exists_tab_of_covers hrun hcovers
  · rcases issues_eq source with ⟨-, hissues⟩ | ⟨range, others, hmarks, -⟩
    · exact found?_of_issues hsource hissues settings
    · rw [hnil] at hmarks
      cases hmarks
  · rcases issues_eq source with ⟨hnil, -⟩ | ⟨range, others, hmarks, hissues⟩
    · exact absurd hnil hne
    · obtain ⟨hmany, hfew⟩ := messageFor_eq (runs source.lines).length
      refine ⟨_, range, others, found?_of_issues hsource hissues settings, rfl, rfl, rfl, hmarks,
        hmany, fun hle ↦ ?_⟩
      rw [hfew hle]
      exact ⟨rfl, not_suffix_message⟩

/-- There are a mark and a tab before the first tag, then as many runs as the issue shows and one
more, and two tabs on the second line. -/
theorem found_runs_of_parse_marked :
    let text := "\uFEFF\t<a>".toList ++ (List.replicate 22 ['\t', 'x']).flatten ++
      "\r\n\t\t</a>".toList
    let source := Source.ofChars "" .utf8 text
    ∃ file, XmlFile.parse source = .ok file ∧ ∃ runs issue range others,
      check.found? file .default = some [issue] ∧
      List.Forall₂ (Marks source) (List.take 21 runs) (range :: others) ∧
      issue.message = message ++ " (3 more)" ∧ 21 < runs.length ∧
      (∃! run, run ∈ runs ∧ Covers source run ⟨1, 1⟩) ∧
      ∃! run, run ∈ runs ∧ Covers source run ⟨2, 1⟩ := by
  intro text source
  have hrun : (XmlFile.parse source).toOption.any (fun file ↦
      (check.found? file .default).any (·.all (·.message == message ++ " (3 more)"))) = true := by
    decide +kernel
  have hplaces : text[1]? = some '\t' ∧ Text.coordinates text 1 = ⟨1, 1⟩ ∧
      text[52]? = some '\t' ∧ Text.coordinates text 52 = ⟨2, 1⟩ := by
    decide +kernel
  obtain ⟨htab, hplace, htab', hplace'⟩ := hplaces
  obtain ⟨file, hparse, hfile⟩ := exists_of_any hrun
  obtain ⟨runs, -, -, hunique, -, -, hshown⟩ := found_runs_of_parse hparse .default
  obtain ⟨run, ⟨hmem, -⟩, -⟩ := hunique 1 htab
  obtain ⟨issue, range, others, hfound, -, -, -, hmarks, -, hfew⟩ :=
    hshown (List.ne_nil_of_mem hmem)
  have hmessage : issue.message = message ++ " (3 more)" := by
    simpa [hfound] using hfile
  refine ⟨file, hparse, runs, issue, range, others, hfound, hmarks, hmessage, ?_,
    hplace ▸ hunique 1 htab, hplace' ▸ hunique 52 htab'⟩
  refine Nat.lt_of_not_le fun hle ↦ (hfew hle).2 3 ?_
  rw [hmessage, String.toList_append]
  decide +kernel

end TabCheck

end XmlInspect
