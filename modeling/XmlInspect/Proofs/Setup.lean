import Mathlib.Data.List.Nodup
import Mathlib.Data.List.TakeWhile
import XmlInspect.Check.Registry
import XmlInspect.Proofs.Located

/-!
# What comes of a configuration

A configuration lists rules with their parameters. Two searches go through it, one along the rules
of this library and one along the names in the list, and each leaves something out: the first
whatever it does not know, the second whatever is known. Together they miss nothing and take nothing
twice. Each rule in the list is *accounted* for by one entry, which is a check or the reason why
there is none. Only the rule about files that cannot be parsed has no entry, since it has no check.

Which parameters a rule accepts is said here in terms of the values that are set, and not in terms
of how they are read.
-/

namespace XmlInspect

/-! ## Numbers -/

/-- A value is a number, or it is a text that spells one: some digits between blanks, perhaps after
a plus sign. A number that is spelled has at most 64 bits. -/
inductive ParamValue.Spells : ParamValue → Nat → Prop
  | integer (n : Nat) : Spells (.integer n) n
  | text {value : String} {digits : List Char} :
    (Text.trim Text.isBlank value.toList = digits ∨
      Text.trim Text.isBlank value.toList = '+' :: digits) →
      digits ≠ [] → (∀ c ∈ digits, c.isDigit) → Nat.ofDigitChars 10 digits 0 < UInt64.size →
      Spells (.text value) (Nat.ofDigitChars 10 digits 0)

private theorem readDigits?_eq_some_iff {digits : List Char} {n : Nat} :
    readDigits? digits = some n ↔
      digits ≠ [] ∧ (∀ c ∈ digits, c.isDigit) ∧ Nat.ofDigitChars 10 digits 0 = n := by
  cases digits with
  | nil => simp [readDigits?]
  | cons c digits =>
    rw [readDigits?, Option.ite_none_right_eq_some, List.all_eq_true, Option.some.injEq]
    · simp [Nat.ofDigitChars]
    · exact List.cons_ne_nil c digits

private theorem readNatural?_eq_some_iff {bound n : Nat} {text : List Char} :
    readNatural? bound text = some n ↔ ∃ digits, (text = digits ∨ text = '+' :: digits) ∧
      digits ≠ [] ∧ (∀ c ∈ digits, c.isDigit) ∧ Nat.ofDigitChars 10 digits 0 = n ∧ n < bound := by
  have hread (digits : List Char) : (readDigits? digits).filter (· < bound) = some n ↔
      digits ≠ [] ∧ (∀ c ∈ digits, c.isDigit) ∧ Nat.ofDigitChars 10 digits 0 = n ∧ n < bound := by
    rw [Option.filter_eq_some_iff, readDigits?_eq_some_iff, decide_eq_true_iff]
    simp only [and_assoc]
  unfold readNatural?
  dsimp only
  rw [hread]
  split
  · rename_i digits
    constructor
    · exact fun h ↦ ⟨digits, .inr rfl, h⟩
    · rintro ⟨_, rfl | heq, h⟩
      · exact absurd (h.2.1 '+' List.mem_cons_self) (by decide)
      · cases heq
        exact h
  · rename_i hplus
    constructor
    · exact fun h ↦ ⟨text, .inl rfl, h⟩
    · rintro ⟨digits, rfl | rfl, h⟩
      · exact h
      · exact absurd rfl (hplus digits)

private theorem Text.trim_eq_nil_iff {drop : Char → Bool} {text : List Char} :
    trim drop text = [] ↔ ∀ c ∈ text, drop c = true := by
  rw [trim, trimEnd, List.reverse_eq_nil_iff, List.dropWhile_eq_nil_iff]
  simp only [List.mem_reverse]
  constructor
  · intro h c hc
    rw [← @List.takeWhile_append_dropWhile _ drop text, List.mem_append] at hc
    exact hc.elim List.mem_takeWhile_imp (h c)
  · exact fun h c hc ↦ h c ((List.dropWhile_sublist drop).subset hc)

namespace ParamValue

variable {n : Nat}

private theorem spells_integer_iff {value : Int} : (integer value).Spells n ↔ value = n := by
  constructor
  · intro h
    cases h
    rfl
  · rintro rfl
    exact .integer n

private theorem spells_text_iff {value : String} : (text value).Spells n ↔
    readNatural? UInt64.size (Text.trim Text.isBlank value.toList) = some n := by
  rw [readNatural?_eq_some_iff]
  constructor
  · intro h
    cases h with
    | text htext hne hdigits hlt => exact ⟨_, htext, hne, hdigits, rfl, hlt⟩
  · rintro ⟨digits, htext, hne, hdigits, rfl, hlt⟩
    exact .text htext hne hdigits hlt

end ParamValue

namespace RuleParams

variable {params : RuleParams} {key : String}

theorem getNatural?_of_none (h : params.get? key = none) : params.getNatural? key = .ok none := by
  rw [getNatural?, h]

/-- A number is read from what spells it. -/
theorem getNatural?_eq_ok_iff {value : ParamValue} {n? : Option Nat}
    (h : params.get? key = some value) :
    params.getNatural? key = .ok n? ↔ ∃ n, value.Spells n ∧ n? = some n := by
  rw [getNatural?, h]
  cases value with
  | integer value =>
    simp only [ParamValue.spells_integer_iff]
    split
    · rename_i hneg
      refine iff_of_false nofun ?_
      rintro ⟨n, rfl, -⟩
      exact absurd hneg (Int.not_lt.2 (Int.natCast_nonneg n))
    · rename_i hpos
      constructor
      · intro hok
        cases hok
        exact ⟨value.toNat, (Int.toNat_of_nonneg (Int.not_lt.1 hpos)).symm, rfl⟩
      · rintro ⟨n, rfl, rfl⟩
        rfl
  | boolean value => exact iff_of_false nofun fun ⟨n, hspells, _⟩ ↦ nomatch hspells
  | text value =>
    simp only [ParamValue.spells_text_iff]
    split
    · rename_i n hread
      simp [hread, eq_comm]
    · rename_i hread
      simp [hread]

/-- The parameter is a number, if it is set. -/
def IsNatural (params : RuleParams) (key : String) : Prop :=
  ∀ value, params.get? key = some value → ∃ n, value.Spells n

/-- The parameter is the version of a platform, if it is set. -/
def IsVersion (params : RuleParams) (key : String) : Prop :=
  ∀ value, params.get? key = some value → ∃ n, value.Spells n ∧ n < UInt32.size

/-- The parameter is set, and not to blanks only. -/
def IsText (params : RuleParams) (key : String) (text : String) : Prop :=
  (∃ value, params.get? key = some value ∧ value.toText = text) ∧
    ∃ c ∈ text.toList, Text.isBlank c = false

private theorem exists_getNatural_iff {default : Nat} :
    (∃ n, params.getNatural key default = .ok n) ↔ params.IsNatural key := by
  rw [getNatural]
  simp only [bind_eq_ok_iff]
  constructor
  · rintro ⟨n, n?, hok, -⟩ value hget
    obtain ⟨n, hspells, -⟩ := (getNatural?_eq_ok_iff hget).1 hok
    exact ⟨n, hspells⟩
  · intro h
    cases hget : params.get? key with
    | none => exact ⟨default, none, getNatural?_of_none hget, rfl⟩
    | some value =>
      obtain ⟨n, hspells⟩ := h value hget
      exact ⟨n, some n, (getNatural?_eq_ok_iff hget).2 ⟨n, hspells, rfl⟩, rfl⟩

private theorem exists_getVersion?_iff :
    (∃ n?, params.getVersion? key = .ok n?) ↔ params.IsVersion key := by
  rw [getVersion?]
  simp only [bind_eq_ok_iff]
  constructor
  · rintro ⟨n?, version?, hok, hversion⟩ value hget
    obtain ⟨n, hspells, rfl⟩ := (getNatural?_eq_ok_iff hget).1 hok
    exact ⟨n, hspells, by_contra fun hlt ↦ nomatch (if_neg hlt).symm.trans hversion⟩
  · intro h
    cases hget : params.get? key with
    | none => exact ⟨none, none, getNatural?_of_none hget, rfl⟩
    | some value =>
      obtain ⟨n, hspells, hlt⟩ := h value hget
      exact ⟨some n, some n, (getNatural?_eq_ok_iff hget).2 ⟨n, hspells, rfl⟩, if_pos hlt⟩

private theorem requireText_eq_ok_iff {text : String} :
    params.requireText key = .ok text ↔ params.IsText key text := by
  rw [requireText, IsText]
  cases hget : params.get? key with
  | none => simp
  | some value =>
    simp only [List.isEmpty_iff, Text.trim_eq_nil_iff]
    split
    · rename_i hblank
      refine iff_of_false nofun ?_
      rintro ⟨⟨_, heq, rfl⟩, c, hc, hvisible⟩
      cases heq
      exact Bool.false_ne_true (hvisible.symm.trans (hblank c hc))
    · rename_i hvisible
      constructor
      · intro h
        cases h
        exact ⟨⟨value, rfl, rfl⟩, by simpa using hvisible⟩
      · rintro ⟨⟨_, heq, rfl⟩, -⟩
        cases heq
        rfl

end RuleParams

/-! ## Rules -/

section

variable {params : RuleParams}

theorem Indentation.exists_ofParams_iff : (∃ config, ofParams params = .ok config) ↔
    params.IsNatural "indentSize" ∧ params.IsNatural "tabSize" := by
  rw [ofParams, ← RuleParams.exists_getNatural_iff, ← RuleParams.exists_getNatural_iff]
  simp only [bind_eq_ok_iff]
  constructor
  · rintro ⟨config, indentSize, hindent, tabSize, htab, -⟩
    exact ⟨⟨indentSize, hindent⟩, tabSize, htab⟩
  · rintro ⟨⟨indentSize, hindent⟩, tabSize, htab⟩
    exact ⟨_, indentSize, hindent, tabSize, htab, rfl⟩

theorem CommentPattern.exists_ofParams_iff [PatternEngine] :
    (∃ config, ofParams params = .ok config) ↔
      ∃ isFoundIn, PatternEngine.compile (params.getText "pattern" defaultPattern) =
        .ok isFoundIn := by
  rw [ofParams, ofText]
  cases PatternEngine.compile (params.getText "pattern" defaultPattern) with
  | error reason => simp
  | ok isFoundIn => simp

theorem PathRule.exists_ofParams_iff : (∃ config, ofParams params = .ok config) ↔
    (∃ expression query, params.IsText "expression" expression ∧
      Query.compile expression = .ok query) ∧ params.IsVersion "untilPlatformVersion" := by
  rw [ofParams, ← RuleParams.exists_getVersion?_iff]
  simp only [ofExpression, bind_eq_ok_iff, mapError_eq_ok_iff, RuleParams.requireText_eq_ok_iff]
  constructor
  · rintro ⟨config, expression, htext, _, ⟨query, hquery, -⟩, version, hversion, -⟩
    exact ⟨⟨expression, query, htext, hquery⟩, version, hversion⟩
  · rintro ⟨⟨expression, query, htext, hquery⟩, version, hversion⟩
    exact ⟨_, expression, htext, _, ⟨query, hquery, rfl⟩, version, hversion, rfl⟩

end

namespace Rule

/-- The parameters with which a rule can be set up. What patterns can be looked for is up to the
engine. -/
def Accepts [PatternEngine] : Rule → RuleParams → Prop
  | indentation, params => params.IsNatural "indentSize" ∧ params.IsNatural "tabSize"
  | commentPattern, params =>
    ∃ isFoundIn, PatternEngine.compile
      (params.getText "pattern" CommentPattern.defaultPattern) = .ok isFoundIn
  | path, params =>
    (∃ expression query, params.IsText "expression" expression ∧
      Query.compile expression = .ok query) ∧ params.IsVersion "untilPlatformVersion"
  | _, _ => True

variable {rule : Rule} {params : RuleParams}

theorem mem_all (rule : Rule) : rule ∈ all := by cases rule <;> decide

theorem nodup_keys : (all.map key).Nodup := by decide

theorem key_injective : Function.Injective key := fun a b h ↦
  List.inj_on_of_nodup_map nodup_keys (mem_all a) (mem_all b) h

/-- What is set up is what comes of the configuration of the rule. -/
theorem withConfig_of_iff {ε α : Type} {toError : ε → Error} {toCheck : α → Check}
    {config : Except ε α} {accepted : Prop} {key : String}
    (h : (∃ a, config = .ok a) ↔ accepted) (hkey : ∀ a, (toCheck a).rule = key) :
    (accepted → ∃ check, withConfig toError toCheck config = some (.ok check) ∧ check.rule = key) ∧
      (¬ accepted → ∃ error, withConfig toError toCheck config = some (.error error)) := by
  rw [← h]
  cases config with
  | ok a => exact ⟨fun _ ↦ ⟨toCheck a, rfl, hkey a⟩, fun hnot ↦ absurd ⟨a, rfl⟩ hnot⟩
  | error fault => exact ⟨fun ⟨a, hok⟩ ↦ (nomatch hok), fun _ ↦ ⟨toError fault, rfl⟩⟩

/-- A rule gives a check if it accepts its parameters, and a fault otherwise. -/
theorem check?_of_ne [PatternEngine] (h : rule ≠ parsingError) (params : RuleParams) :
    (rule.Accepts params →
      ∃ check, rule.check? params = some (.ok check) ∧ check.rule = rule.key) ∧
      (¬ rule.Accepts params → ∃ error, rule.check? params = some (.error error)) := by
  cases rule with
  | parsingError => exact absurd rfl h
  | charBeforeProlog | newline | tabCharacter | newlineAtEndOfFile =>
    exact ⟨fun _ ↦ ⟨_, rfl, rfl⟩, fun hnot ↦ absurd trivial hnot⟩
  | indentation => exact withConfig_of_iff Indentation.exists_ofParams_iff fun _ ↦ rfl
  | commentPattern => exact withConfig_of_iff CommentPattern.exists_ofParams_iff fun _ ↦ rfl
  | path => exact withConfig_of_iff PathRule.exists_ofParams_iff fun _ ↦ rfl

theorem exists_check?_iff [PatternEngine] :
    (∃ entry, rule.check? params = some entry) ↔ rule ≠ parsingError := by
  constructor
  · rintro ⟨entry, h⟩ rfl
    cases h
  · intro h
    obtain ⟨hok, herror⟩ := check?_of_ne h params
    by_cases haccepts : rule.Accepts params
    · obtain ⟨check, hcheck, -⟩ := hok haccepts
      exact ⟨_, hcheck⟩
    · obtain ⟨error, hcheck⟩ := herror haccepts
      exact ⟨_, hcheck⟩

end Rule

/-! ## Configurations -/

theorem map_filterMap_sublist {α β γ : Type*} {f : α → Option β} {g : β → γ} {k : α → γ}
    {l : List α} (h : ∀ a b, f a = some b → g b = k a) :
    ((l.filterMap f).map g).Sublist (l.map k) := by
  induction l with
  | nil => exact .slnil
  | cons a l ih =>
    rw [List.filterMap_cons, List.map_cons]
    split
    · exact .cons _ ih
    · rename_i b hb
      rw [List.map_cons, h a b hb]
      exact ih.cons_cons _

namespace Config

variable {config : Config} {key : String} {params : RuleParams}

/-- The parameters of a rule are those that are listed for it. -/
theorem params?_eq_some_iff (h : (config.rules.map Prod.fst).Nodup) :
    config.params? key = some params ↔ (key, params) ∈ config.rules := by
  rw [params?, List.lookup_eq_some_iff]
  constructor
  · rintro ⟨front, back, heq, -⟩
    simp [heq]
  · intro hmem
    obtain ⟨front, back, heq⟩ := List.append_of_mem hmem
    refine ⟨front, back, heq, fun entry hentry ↦ bne_iff_ne.2 fun hkey ↦ ?_⟩
    rw [heq, List.map_append, List.map_cons, List.nodup_append] at h
    exact h.2.2 _ (List.mem_map_of_mem hentry) _ List.mem_cons_self hkey.symm

private theorem exists_params_iff (h : (config.rules.map Prod.fst).Nodup) :
    (∃ params, config.params? key = some params) ↔ key ∈ config.rules.map Prod.fst := by
  simp only [params?_eq_some_iff h, List.mem_map, Prod.exists, exists_and_right, exists_eq_right]

theorem mem_unknownRules_iff : key ∈ config.unknownRules ↔
    key ∈ config.rules.map Prod.fst ∧ ∀ rule : Rule, rule.key ≠ key := by
  rw [unknownRules, List.mem_filter]
  refine and_congr_right fun _ ↦ ?_
  simp [Rule.mem_all]

/-- The configuration with other parameters for a rule that is to be applied. -/
def withParams (config : Config) (key : String) (params : RuleParams) : Config :=
  { config with rules := config.rules.map fun (name, old) ↦
      (name, if name = key then params else old) }

theorem params?_withParams (config : Config) (key : String) (params : RuleParams) (name : String) :
    (config.withParams key params).params? name =
      (config.params? name).map fun old ↦ if name = key then params else old := by
  unfold params? withParams
  dsimp only
  induction config.rules with
  | nil => rfl
  | cons entry rules ih =>
    obtain ⟨first, old⟩ := entry
    rw [List.map_cons]
    by_cases hname : name = first
    · subst hname
      rw [List.lookup_cons_self, List.lookup_cons_self, Option.map_some]
    · have hbeq : (name == first) = false := beq_false_of_ne hname
      simp only [List.lookup_cons, hbeq, ih]

section

variable [PatternEngine]

/-- What a rule that is to be applied comes to: a check, or the reason why there is none. -/
inductive Accounts (key : String) (params : RuleParams) : Except Error Check → Prop
  | check {rule : Rule} {check : Check} : rule.key = key → rule.Accepts params →
    rule.check? params = some (.ok check) → check.rule = key → Accounts key params (.ok check)
  | refused {rule : Rule} {error : Error} : rule.key = key → ¬ rule.Accepts params →
    rule.check? params = some (.error error) → Accounts key params (.error error)
  | unknown : (∀ rule : Rule, rule.key ≠ key) →
    Accounts key params (.error (.configuration key .unknownRule))

theorem accounts_of_check? {rule : Rule} {entry : Except Error Check}
    (h : rule.check? params = some entry) : Accounts rule.key params entry := by
  obtain ⟨hok, herror⟩ := Rule.check?_of_ne (Rule.exists_check?_iff.1 ⟨entry, h⟩) params
  by_cases haccepts : rule.Accepts params
  · obtain ⟨check, hcheck, hkey⟩ := hok haccepts
    cases h.symm.trans hcheck
    exact .check rfl haccepts hcheck hkey
  · obtain ⟨error, hcheck⟩ := herror haccepts
    cases h.symm.trans hcheck
    exact .refused rfl haccepts hcheck

/-- The rules of this library that are to be applied, with what comes of them. -/
def outcomes (config : Config) : List (String × Except Error Check) :=
  Rule.all.filterMap fun rule ↦
    ((config.params? rule.key).bind rule.check?).map (rule.key, ·)

private theorem map_snd_outcomes (config : Config) :
    config.outcomes.map Prod.snd = config.results := by
  rw [outcomes, results, List.map_filterMap]
  simp only [Option.map_map, Function.comp_def, Option.map_id']

theorem mem_outcomes_iff {entry : Except Error Check} : (key, entry) ∈ config.outcomes ↔
    ∃ (rule : Rule) (params : RuleParams), rule.key = key ∧ config.params? key = some params ∧
      rule.check? params = some entry := by
  rw [outcomes, List.mem_filterMap]
  constructor
  · rintro ⟨rule, -, houtcome⟩
    obtain ⟨_, hentry, heq⟩ := Option.map_eq_some_iff.1 houtcome
    cases heq
    obtain ⟨params, hparams, hcheck⟩ := Option.bind_eq_some_iff.1 hentry
    exact ⟨rule, params, rfl, hparams, hcheck⟩
  · rintro ⟨rule, params, rfl, hparams, hcheck⟩
    refine ⟨rule, rule.mem_all, ?_⟩
    rw [hparams, Option.bind_some, hcheck]
    rfl

private theorem nodup_map_fst_outcomes (config : Config) :
    (config.outcomes.map Prod.fst).Nodup := by
  have hsub : (config.outcomes.map Prod.fst).Sublist (Rule.all.map Rule.key) := by
    refine map_filterMap_sublist fun rule outcome h ↦ ?_
    obtain ⟨_, -, rfl⟩ := Option.map_eq_some_iff.1 h
    rfl
  exact hsub.nodup Rule.nodup_keys

private theorem mem_map_fst_outcomes_iff (h : (config.rules.map Prod.fst).Nodup) :
    key ∈ config.outcomes.map Prod.fst ↔
      key ∈ config.rules.map Prod.fst ∧ ∃ rule : Rule, rule ≠ .parsingError ∧ rule.key = key := by
  rw [← exists_params_iff h, List.mem_map]
  constructor
  · rintro ⟨⟨_, entry⟩, hmem, rfl⟩
    obtain ⟨rule, params, hkey, hparams, hcheck⟩ := mem_outcomes_iff.1 hmem
    exact ⟨⟨params, hparams⟩, rule, Rule.exists_check?_iff.1 ⟨entry, hcheck⟩, hkey⟩
  · rintro ⟨⟨params, hparams⟩, rule, hne, hkey⟩
    obtain ⟨entry, hcheck⟩ := Rule.exists_check?_iff.2 hne
    exact ⟨(key, entry), mem_outcomes_iff.2 ⟨rule, params, hkey, hparams, hcheck⟩, rfl⟩

/-- Each rule that is to be applied is one of this library or unknown to it, but for the one that
has no check. -/
theorem map_fst_outcomes_append_perm (h : (config.rules.map Prod.fst).Nodup) :
    (config.outcomes.map Prod.fst ++ config.unknownRules).Perm
      ((config.rules.map Prod.fst).filter (· != Rule.parsingError.key)) := by
  -- No name is on either side twice, so it is enough that the same names are on both.
  have hdisjoint : ∀ name ∈ config.outcomes.map Prod.fst, ∀ other ∈ config.unknownRules,
      name ≠ other := by
    rintro name hname _ hother rfl
    obtain ⟨-, rule, -, hkey⟩ := (mem_map_fst_outcomes_iff h).1 hname
    exact (mem_unknownRules_iff.1 hother).2 rule hkey
  have hnodup : (config.outcomes.map Prod.fst ++ config.unknownRules).Nodup :=
    List.nodup_append.2 ⟨config.nodup_map_fst_outcomes, h.filter _, hdisjoint⟩
  refine (List.perm_ext_iff_of_nodup hnodup (h.filter _)).2 fun name ↦ ?_
  rw [List.mem_append, mem_map_fst_outcomes_iff h, mem_unknownRules_iff, List.mem_filter,
    bne_iff_ne, ← and_or_left]
  refine and_congr_right fun _ ↦ ?_
  constructor
  · rintro (⟨rule, hne, rfl⟩ | hunknown)
    · exact fun hkey ↦ hne (Rule.key_injective hkey)
    · exact (hunknown .parsingError).symm
  · intro hne
    by_cases hknown : ∃ rule : Rule, rule.key = name
    · obtain ⟨rule, rfl⟩ := hknown
      exact .inl ⟨rule, fun heq ↦ hne (heq ▸ rfl), rfl⟩
    · exact .inr (not_exists.1 hknown)

/-- What comes of the rules that are to be applied: first the checks, and then why there are no
others. -/
def accounts (config : Config) : List (String × Except Error Check) :=
  config.outcomes.filter (·.2.isOk) ++ config.outcomes.filter (!·.2.isOk) ++
    config.unknownRules.map fun name ↦ (name, .error (.configuration name .unknownRule))

private theorem map_ok_checks (config : Config) :
    config.checks.map .ok = config.results.filter (·.isOk) := by
  rw [checks]
  induction config.results with
  | nil => rfl
  | cons result results ih =>
    cases result with
    | ok check => simpa [Except.isOk, Except.toBool] using ih
    | error error => simpa [Except.isOk, Except.toBool] using ih

private theorem map_error_setupErrors (config : Config) :
    config.setupErrors.map .error = config.results.filter (!·.isOk) ++
      config.unknownRules.map fun name ↦ .error (.configuration name .unknownRule) := by
  rw [setupErrors, List.map_append, List.map_map]
  refine congrArg (· ++ _) ?_
  induction config.results with
  | nil => rfl
  | cons result results ih =>
    cases result with
    | ok check => simpa [Except.isOk, Except.toBool] using ih
    | error error => simpa [Except.isOk, Except.toBool] using ih

private theorem map_snd_accounts (config : Config) : config.accounts.map Prod.snd =
    config.checks.map .ok ++ config.setupErrors.map .error := by
  have hsnd (p : Except Error Check → Bool) :
      (config.outcomes.filter (p ·.2)).map Prod.snd = config.results.filter p := by
    rw [← map_snd_outcomes, List.filter_map]
    rfl
  rw [accounts, List.map_append, List.map_append, hsnd, hsnd (!·.isOk), List.map_map,
    map_ok_checks, map_error_setupErrors, List.append_assoc]
  rfl

private theorem map_fst_accounts_perm (h : (config.rules.map Prod.fst).Nodup) :
    (config.accounts.map Prod.fst).Perm
      ((config.rules.map Prod.fst).filter (· != Rule.parsingError.key)) := by
  rw [accounts, List.map_append, List.map_map]
  refine .trans (.append (.map _ (List.filter_append_perm _ _)) ?_)
    (map_fst_outcomes_append_perm h)
  exact .of_eq (List.map_id _)

/-- Each rule that is to be applied comes to what it should. -/
theorem exists_accounts_of_mem (h : (config.rules.map Prod.fst).Nodup)
    {entry : Except Error Check} (hmem : (key, entry) ∈ config.accounts) :
    ∃ params, (key, params) ∈ config.rules ∧ Accounts key params entry := by
  have houtcome (houtcome : (key, entry) ∈ config.outcomes) :
      ∃ params, (key, params) ∈ config.rules ∧ Accounts key params entry := by
    obtain ⟨rule, params, rfl, hparams, hcheck⟩ := mem_outcomes_iff.1 houtcome
    exact ⟨params, (params?_eq_some_iff h).1 hparams, accounts_of_check? hcheck⟩
  rw [accounts, List.mem_append, List.mem_append, List.mem_filter, List.mem_filter] at hmem
  obtain (⟨hmem, -⟩ | ⟨hmem, -⟩) | hmem := hmem
  · exact houtcome hmem
  · exact houtcome hmem
  · obtain ⟨name, hname, heq⟩ := List.mem_map.1 hmem
    cases heq
    obtain ⟨hkey, hunknown⟩ := mem_unknownRules_iff.1 hname
    obtain ⟨⟨_, params⟩, hparams, rfl⟩ := List.mem_map.1 hkey
    exact ⟨params, hparams, .unknown hunknown⟩

/-! ## Order and independence -/

/-- The check of a rule, if there is one. -/
def check? (config : Config) (rule : Rule) : Option Check :=
  ((config.params? rule.key).bind rule.check?).bind Except.toOption

theorem checks_eq (config : Config) : config.checks = Rule.all.filterMap config.check? := by
  rw [checks, results, List.filterMap_filterMap]
  congr 1
  funext rule
  rw [check?]
  congr 1
  funext entry
  cases entry <;> rfl

theorem check?_eq_some_iff {rule : Rule} {check : Check} : config.check? rule = some check ↔
    ∃ params, config.params? rule.key = some params ∧ rule.check? params = some (.ok check) := by
  have htoOption (entry : Except Error Check) :
      entry.toOption = some check ↔ entry = .ok check := by
    cases entry <;> simp [Except.toOption]
  simp only [check?, Option.bind_eq_some_iff, htoOption]
  constructor
  · rintro ⟨_, ⟨params, hparams, hcheck⟩, rfl⟩
    exact ⟨params, hparams, hcheck⟩
  · rintro ⟨params, hparams, hcheck⟩
    exact ⟨_, ⟨params, hparams, hcheck⟩, rfl⟩

theorem rule_of_check? {rule : Rule} {check : Check} (h : config.check? rule = some check) :
    check.rule = rule.key := by
  obtain ⟨params, -, hcheck⟩ := check?_eq_some_iff.1 h
  cases accounts_of_check? hcheck with
  | check _ _ _ hkey => exact hkey

/-- The checks are in the order of the rules of this library. -/
theorem map_rule_checks_sublist (config : Config) :
    (config.checks.map Check.rule).Sublist (Rule.all.map Rule.key) := by
  rw [checks_eq]
  exact map_filterMap_sublist fun rule check ↦ rule_of_check?

theorem checks_of_perm {rules : List (String × RuleParams)}
    (h : (config.rules.map Prod.fst).Nodup) (hperm : rules.Perm config.rules) :
    checks { config with rules } = config.checks := by
  have hparams (key : String) : params? { config with rules } key = config.params? key := by
    refine Option.ext fun params ↦ ?_
    rw [params?_eq_some_iff h, params?_eq_some_iff ((hperm.map _).nodup_iff.2 h), hperm.mem_iff]
  rw [checks, checks, results, results]
  simp only [hparams]

/-- A rule that does not accept its parameters any more loses its check, and no other does. -/
theorem checks_withParams {rule : Rule} (h : ¬ rule.Accepts params) :
    (config.withParams rule.key params).checks = config.checks.filter (·.rule != rule.key) := by
  rw [checks_eq, checks_eq, List.filter_filterMap]
  congr 1
  funext other
  refine Option.ext fun check ↦ ?_
  rw [Option.filter_eq_some_iff, check?_eq_some_iff, params?_withParams]
  by_cases hother : other = rule
  · -- The rule itself had a check of this name, or none.
    subst hother
    refine iff_of_false ?_ ?_
    · rintro ⟨_, hparams, hcheck⟩
      obtain ⟨old, -, rfl⟩ := Option.map_eq_some_iff.1 hparams
      rw [if_pos rfl] at hcheck
      cases accounts_of_check? hcheck with
      | check hkey haccepts => exact h (Rule.key_injective hkey ▸ haccepts)
    · rintro ⟨hcheck, hne⟩
      exact bne_iff_ne.1 hne (rule_of_check? hcheck)
  · have hkey : other.key ≠ rule.key := fun heq ↦ hother (Rule.key_injective heq)
    simp only [if_neg hkey, Option.map_id', ← check?_eq_some_iff]
    refine (and_iff_left_of_imp fun hcheck ↦ ?_).symm
    exact bne_iff_ne.2 (rule_of_check? hcheck ▸ hkey)

/-! ## The whole -/

/-- No rule that is to be applied is lost. Except for the one that has no check, each of them comes
to one entry, which is a check if the rule is known and accepts its parameters, and otherwise the
one reason why there is no check; and there are no other checks and reasons. The order of the
configuration does not matter to the checks, which are in that of the rules of this library. If a
rule does not accept its parameters any more, all other checks stay what they are. -/
theorem checks_append_setupErrors (config : Config) (h : (config.rules.map Prod.fst).Nodup) :
    (∃ accounts : List (String × Except Error Check),
      (accounts.map Prod.fst).Perm
        ((config.rules.map Prod.fst).filter (· != Rule.parsingError.key)) ∧
      accounts.map Prod.snd = config.checks.map .ok ++ config.setupErrors.map .error ∧
      ∀ key entry, (key, entry) ∈ accounts →
        ∃ params, (key, params) ∈ config.rules ∧ Accounts key params entry) ∧
    (config.checks.map Check.rule).Sublist (Rule.all.map Rule.key) ∧
    (∀ rules, rules.Perm config.rules → checks { config with rules } = config.checks) ∧
    ∀ (rule : Rule) params, ¬ rule.Accepts params →
      (config.withParams rule.key params).checks = config.checks.filter (·.rule != rule.key) := by
  refine ⟨⟨config.accounts, map_fst_accounts_perm h, map_snd_accounts config, ?_⟩,
    map_rule_checks_sublist config, fun rules ↦ checks_of_perm h, fun rule params ↦ ?_⟩
  · exact fun key entry ↦ exists_accounts_of_mem h
  · exact checks_withParams

end

/-- Of five rules one has no check, one is unknown and one does not accept a number that is spelled
in letters. The other two have checks, until one of them is given a pattern that cannot be read. -/
theorem checks_append_setupErrors_mixed :
    let config : Config := ⟨[("NoSuchRule", .empty), (Rule.newline.key, .empty),
      (Rule.parsingError.key, .empty), (Rule.commentPattern.key, .empty),
      (Rule.indentation.key, ⟨[("indentSize", .text "two")]⟩)], .default⟩
    let unclosed : RuleParams := ⟨[("pattern", .text "(unclosed")]⟩
    (config.rules.map Prod.fst).Nodup ∧ ¬ Rule.commentPattern.Accepts unclosed ∧
      config.checks.map Check.rule = [Rule.newline.key, Rule.commentPattern.key] ∧
      config.setupErrors.length = 2 ∧
      (∃ accounts : List (String × Except Error Check), accounts.length = 4 ∧
        accounts.map Prod.snd = config.checks.map .ok ++ config.setupErrors.map .error ∧
        ∃ entry, ("NoSuchRule", entry) ∈ accounts ∧ Accounts "NoSuchRule" .empty entry) ∧
      (config.withParams Rule.commentPattern.key unclosed).checks.map Check.rule =
        [Rule.newline.key] := by
  intro config unclosed
  have hkeys : (config.rules.map Prod.fst).Nodup := by decide
  have hrefused : ¬ Rule.commentPattern.Accepts unclosed := by
    have hread : (Pattern.read
        (unclosed.getText "pattern" CommentPattern.defaultPattern)).toOption = none := by
      decide +kernel
    rintro ⟨isFoundIn, hcompile⟩
    have htest := mapError_eq_ok_iff.1 hcompile
    cases hpattern : Pattern.read (unclosed.getText "pattern" CommentPattern.defaultPattern) with
    | ok pattern =>
      rw [hpattern] at hread
      cases hread
    | error fault =>
      rw [hpattern] at htest
      cases htest
  have hchecks : config.checks.map Check.rule = [Rule.newline.key, Rule.commentPattern.key] := by
    decide +kernel
  obtain ⟨⟨accounts, hperm, hentries, haccounts⟩, -, -, hothers⟩ :=
    checks_append_setupErrors config hkeys
  refine ⟨hkeys, hrefused, hchecks, by decide +kernel, ⟨accounts, ?_, hentries, ?_⟩, ?_⟩
  · rw [← List.length_map Prod.fst, hperm.length_eq]
    decide
  · obtain ⟨⟨_, entry⟩, hmem, rfl⟩ := List.mem_map.1
      (hperm.mem_iff.2 (show "NoSuchRule" ∈ _ by decide))
    obtain ⟨params, hparams, haccount⟩ := haccounts _ _ hmem
    cases (params?_eq_some_iff hkeys).2 hparams
    exact ⟨entry, hmem, haccount⟩
  · have hkept := congrArg (List.filter (· != Rule.commentPattern.key)) hchecks
    rw [List.filter_map] at hkept
    rw [hothers .commentPattern unclosed hrefused]
    exact hkept

end Config

end XmlInspect
