import Mathlib.Data.List.Forall2
import Mathlib.Logic.Function.Basic
import XmlInspect.Proofs.Accounting

/-!
# Files do not influence each other

An analyzer goes from file to file, and two things could carry something over from one to the next:
the stages that it has been through, and the states of its checks. The first are cleared whenever an
analysis ends, in whichever way that is. The second are never cleared by the analyzer. A check that
breaks down is not even told that the file has ended, and goes into the next one with whatever was
left. What helps is the other end of a file: every check of this library makes a new start there,
and does not look at the state it is in.

So an analyzer that has been through some files *resembles* the one it was at first. It may have
checks in other states, and no file brings this to light.
-/

namespace XmlInspect

/-! ## Checks that start afresh -/

namespace Check

variable {check other last : Check} {file : XmlFile} {settings : Settings}

/-- Whatever state a file finds the check in, it is looked at from the same state, or not at all. -/
def Forgetful (check : Check) : Prop :=
  ∀ state state' : check.State, check.startFile state = check.startFile state' ∧
    check.startPanic? state = check.startPanic? state'

private theorem forgetful_stateless (rule : String) (scan : XmlFile → Settings → ScanResult) :
    (stateless rule scan).Forgetful :=
  fun _ _ ↦ ⟨rfl, rfl⟩

/-- Two checks are the same, but for their states. -/
def Alike (check other : Check) : Prop := ∃ state, other = { check with state }

theorem Alike.refl (check : Check) : check.Alike check := ⟨check.state, rfl⟩

theorem Alike.trans (h : check.Alike other) (h' : other.Alike last) : check.Alike last := by
  obtain ⟨state, rfl⟩ := h
  obtain ⟨state', rfl⟩ := h'
  exact ⟨state', rfl⟩

private theorem alike_finish (state : check.State) (result : CheckResult) :
    check.Alike (check.finish state result).2 := by
  rw [finish]
  split <;> exact ⟨_, rfl⟩

theorem alike_run (check : Check) (file : XmlFile) (settings : Settings) :
    check.Alike (check.run file settings).2 := by
  rw [run]
  split
  · exact ⟨_, rfl⟩
  · split
    · exact ⟨_, rfl⟩
    · exact alike_finish _ _
    · exact alike_finish _ _

theorem Alike.rule_eq (h : check.Alike other) : other.rule = check.rule := by
  obtain ⟨state, rfl⟩ := h
  rfl

/-- What a forgetful check finds does not depend on its state. -/
theorem Forgetful.found?_eq (h : check.Forgetful) (halike : check.Alike other) (file : XmlFile)
    (settings : Settings) : other.found? file settings = check.found? file settings := by
  obtain ⟨state, rfl⟩ := halike
  obtain ⟨hstate, hpanic⟩ := h state check.state
  refine found?_congr fun issues ↦ ⟨fun hcompletes ↦ ?_, fun hcompletes ↦ ?_⟩
  · obtain ⟨hstart, hscan, hend⟩ := hcompletes
    dsimp only at hstart hscan hend
    rw [hpanic] at hstart
    rw [hstate] at hscan hend
    exact ⟨hstart, hscan, hend⟩
  · obtain ⟨hstart, hscan, hend⟩ := hcompletes
    rw [← hpanic] at hstart
    rw [← hstate] at hscan hend
    exact ⟨hstart, hscan, hend⟩

end Check

/-- The checks that the rules of this library have. -/
inductive Check.IsBuiltin : Check → Prop
  | prolog : IsBuiltin PrologCheck.check
  | indentation (config : Indentation) : IsBuiltin (Indentation.check config)
  | newline : IsBuiltin NewlineCheck.check
  | tab : IsBuiltin TabCheck.check
  | endOfFile : IsBuiltin EndOfFileCheck.check
  | comment (config : CommentPattern) : IsBuiltin (CommentPattern.check config)
  | path (config : PathRule) : IsBuiltin (PathRule.check config)

namespace Rule

variable {check : Check}

private theorem isBuiltin_of_withConfig {ε α : Type} {toError : ε → Error} {toCheck : α → Check}
    {config : Except ε α} (hall : ∀ a, (toCheck a).IsBuiltin)
    (h : withConfig toError toCheck config = some (.ok check)) : check.IsBuiltin := by
  cases config with
  | error fault => cases h
  | ok a =>
    cases h
    exact hall a

theorem isBuiltin_of_check? [PatternEngine] {rule : Rule} {params : RuleParams}
    (h : rule.check? params = some (.ok check)) : check.IsBuiltin := by
  cases rule with
  | parsingError => cases h
  | charBeforeProlog =>
    cases h
    exact .prolog
  | indentation => exact isBuiltin_of_withConfig .indentation h
  | newline =>
    cases h
    exact .newline
  | tabCharacter =>
    cases h
    exact .tab
  | newlineAtEndOfFile =>
    cases h
    exact .endOfFile
  | commentPattern => exact isBuiltin_of_withConfig .comment h
  | path => exact isBuiltin_of_withConfig .path h

end Rule

theorem Config.isBuiltin_of_mem_checks [PatternEngine] {config : Config} {check : Check}
    (h : check ∈ config.checks) : check.IsBuiltin := by
  obtain ⟨result, hresult, hcheck⟩ := List.mem_filterMap.1 h
  obtain ⟨rule, -, hrule⟩ := List.mem_filterMap.1 hresult
  obtain ⟨params, -, hrule⟩ := Option.bind_eq_some_iff.1 hrule
  cases result with
  | error error => cases hcheck
  | ok found =>
    cases hcheck
    exact Rule.isBuiltin_of_check? hrule

/-- Every rule of this library has a forgetful check. -/
theorem Check.IsBuiltin.forgetful {check : Check} (h : check.IsBuiltin) : check.Forgetful := by
  cases h with
  | newline => exact fun _ _ ↦ ⟨rfl, rfl⟩
  | prolog | indentation | tab | endOfFile | comment | path =>
    exact Check.forgetful_stateless _ _

/-! ## Analyzers that went through some files -/

namespace Analyzer

variable {analyzer later : Analyzer} {file : XmlFile} {settings : Settings}
  {checks checks' : List Check}

/-- Forgetful checks find the same, whatever their states are. -/
theorem found_of_alike (hforgetful : ∀ check ∈ checks, check.Forgetful)
    (halike : List.Forall₂ Check.Alike checks checks') (file : XmlFile) (settings : Settings) :
    (checks'.flatMap fun check ↦ (check.found? file settings).getD []) =
        (checks.flatMap fun check ↦ (check.found? file settings).getD []) ∧
      (checks'.filter fun check ↦ check.fails file settings).map (·.rule) =
        (checks.filter fun check ↦ check.fails file settings).map (·.rule) := by
  induction halike with
  | nil => exact ⟨rfl, rfl⟩
  | @cons check other checks checks' hcheck _ ih =>
    obtain ⟨hfirst, hrest⟩ := List.forall_mem_cons.1 hforgetful
    obtain ⟨hissues, hfailed⟩ := ih hrest
    have hfound := hfirst.found?_eq hcheck file settings
    constructor
    · rw [List.flatMap_cons, List.flatMap_cons, hfound, hissues]
    · rw [List.filter_cons, List.filter_cons, Check.fails, hfound, ← Check.fails]
      split
      · rw [List.map_cons, List.map_cons, hcheck.rule_eq, hfailed]
      · exact hfailed

/-- An analyzer is another one, but for the states of its checks. -/
structure Resembles (analyzer later : Analyzer) : Prop where
  eq_running : later = analyzer.running later.checks
  alike : List.Forall₂ Check.Alike analyzer.checks later.checks

theorem Resembles.refl (analyzer : Analyzer) : analyzer.Resembles analyzer :=
  ⟨rfl, List.forall₂_same.2 fun check _ ↦ .refl check⟩

variable [EastAsianDecoder]

/-- What comes of a file, apart from the analyzer after it. -/
def analyzeAlone (analyzer : Analyzer) (input : InputFile) : Findings × Outcome :=
  ((analyzer.analyze input).1, (analyzer.analyze input).2.1)

/-- A file does not tell apart analyzers that resemble each other, and they do so after it. -/
theorem Resembles.analyze (h : analyzer.Resembles later) (hrests : analyzer.Rests)
    (hforgetful : ∀ check ∈ analyzer.checks, check.Forgetful) (input : InputFile) :
    later.analyzeAlone input = analyzer.analyzeAlone input ∧
      analyzer.Resembles (later.analyze input).2.2 := by
  obtain ⟨heq, halike⟩ := h
  generalize later.checks = checks at heq halike
  subst heq
  -- After a file an analyzer rests as it did before, and only its checks are in other states.
  have hidle : { analyzer with stage := .idle, visited := [] } = analyzer := by
    rw [← hrests.stage, ← hrests.visited]
  cases hparse : input.parse with
  | error error =>
    obtain ⟨issues, -, hanalyze⟩ := analyze_of_error analyzer hparse
    have hself : analyzer.analyze input = _ := hanalyze analyzer.checks
    constructor
    · rw [analyzeAlone, analyzeAlone, hanalyze, hself]
    · rw [hanalyze]
      exact ⟨congrArg (running · checks) hidle, halike⟩
  | ok file =>
    obtain ⟨hissues, hfailed⟩ := found_of_alike hforgetful halike file analyzer.settings
    have hself := analyze_of_ok analyzer hparse
    have hlater := analyze_of_ok (analyzer.running checks) hparse
    simp only [running] at hlater
    rw [hissues, hfailed] at hlater
    constructor
    · rw [analyzeAlone, analyzeAlone, running, hself, hlater]
      rfl
    · rw [running, hlater]
      refine ⟨congrArg (running · _) hidle, ?_⟩
      exact List.forall₂_map_right_iff.2
        (halike.imp fun check other hcheck ↦ hcheck.trans (Check.alike_run other file _))

/-! ## Any number of files -/

theorem Resembles.analyzeAll (h : analyzer.Resembles later) (hrests : analyzer.Rests)
    (hforgetful : ∀ check ∈ analyzer.checks, check.Forgetful) (inputs : List InputFile) :
    (later.analyzeAll inputs).1 = inputs.map analyzer.analyzeAlone := by
  induction inputs generalizing later with
  | nil => rfl
  | cons input inputs ih =>
    obtain ⟨halone, hnext⟩ := h.analyze hrests hforgetful input
    rw [List.map_cons, ← ih hnext, ← halone]
    rfl

end Analyzer

end XmlInspect
