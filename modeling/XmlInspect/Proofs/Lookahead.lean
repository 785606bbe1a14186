import XmlInspect.Proofs.Grammar

/-!
# Looking ahead

A parser decides by the next token or two what it is about to read and when to stop, and it never
comes back to a decision. It reads all that the grammar derives, because each of these decisions is
forced by what may follow. After an expression there is nothing more, or something is closed, or a
comma comes, or an operator that does not bind tighter; none of these can be taken for a part of
the expression.
-/

namespace XmlInspect.Query

open Grammar

/-! ## What may follow -/

/-- The level of an operator. -/
def Operator.level : Operator → Precedence
  | or => .or
  | and => .and
  | eq | notEq => .equality
  | lt | ltEq | gt | gtEq => .relation
  | plus | minus => .sum
  | multiply | div | mod => .product
  | union => .union

/-- The tokens end what was read before them on a level. An operator does so unless it binds
tighter. -/
def Ends (level : Precedence) : List Token → Prop
  | [] => True
  | .rightParen :: _ | .rightBracket :: _ | .comma :: _ => True
  | .operator op :: _ => level.rank ≤ op.level.rank
  | _ => False

/-- The tokens continue no step. -/
def LeavesStep (rest : List Token) : Prop :=
  ∀ us, rest ≠ .leftBracket :: us ∧ rest ≠ .leftParen :: us ∧ rest ≠ .doubleColon :: us

section Following

variable {level next : Precedence} {op : Operator} {rest us : List Token}

theorem mem_operators_iff : op ∈ level.operators ↔ op.level = level := by
  cases op <;> cases level <;> decide

theorem reads_operations_of_ne {e : Expr} (h : ∀ op us, rest ≠ .operator op :: us) :
    Reads (operations level e rest) e rest :=
  reads_operations_iff.2 (.inr ⟨fun op _ ↦ h op, rfl, rfl⟩)

namespace Ends

theorem mono (h : Ends level rest) (hle : next.rank ≤ level.rank) : Ends next rest := by
  unfold Ends at h ⊢
  split at h
  case h_5 => exact Nat.le_trans hle h
  case h_6 => exact h
  all_goals trivial

theorem of_mem (h : op ∈ level.operators) (us : List Token) : Ends level (.operator op :: us) :=
  Nat.le_of_eq (congrArg Precedence.rank (mem_operators_iff.1 h).symm)

/-- What has ended on a level takes no operator of a tighter one. -/
theorem reads_operations (h : Ends level rest) (hlt : next.rank < level.rank) (e : Expr) :
    Reads (operations next e rest) e rest := by
  refine reads_operations_iff.2 (.inr ⟨?_, rfl, rfl⟩)
  rintro op hop us rfl
  have hle : level.rank ≤ op.level.rank := h
  rw [mem_operators_iff.1 hop] at hle
  exact absurd hlt (Nat.not_lt.2 hle)

theorem reads_trailingSteps (h : Ends level rest) : Reads (trailingSteps rest) [] rest := by
  refine reads_trailingSteps_iff.2 (.inr (.inr ⟨?_, ?_, rfl, rfl⟩))
  · rintro us rfl
    exact h
  · rintro us rfl
    exact h

theorem leavesStep (h : Ends level rest) : LeavesStep rest := by
  intro us
  refine ⟨?_, ?_, ?_⟩ <;> rintro rfl <;> exact h

theorem startsStep_eq_false (h : Ends level rest) : startsStep rest = false := by
  unfold startsStep
  split
  case h_6 => rfl
  all_goals exact h.elim

end Ends

namespace LeavesStep

theorem slash (us : List Token) : LeavesStep (.slash :: us) := by simp [LeavesStep]

theorem doubleSlash (us : List Token) : LeavesStep (.doubleSlash :: us) := by simp [LeavesStep]

theorem reads_predicates (h : LeavesStep rest) : Reads (predicates rest) [] rest :=
  reads_predicates_iff.2 (.inr ⟨fun us ↦ (h us).1, rfl, rfl⟩)

end LeavesStep

end Following

/-! ## How an expression starts -/

/-- Whether a path can start here. -/
def startsPath : List Token → Bool
  | .literal _ :: _ | .number _ :: _ | .leftParen :: _ | .slash :: _ | .doubleSlash :: _ => true
  | tokens => startsStep tokens

section Start

variable {level : Precedence} {tokens rest us : List Token} {e : Expr} {ss : List Step}

theorem startsStep_of_reads (h : Reads (steps tokens) ss rest) : startsStep tokens := by
  obtain ⟨first, middle, others, hfirst, -, -⟩ := reads_steps_iff.1 h
  obtain ⟨ts, rfl, hts⟩ := oneStep_of_reads hfirst
  cases hts with
  | self | parent => rfl
  | step hdirection htest _ =>
    cases hdirection with
    | children => cases htest <;> rfl
    | attributes | named => rfl

private theorem startsPath_of_reads_path (h : Reads (path tokens) e rest) : startsPath tokens := by
  rcases reads_path_iff.1 h with ⟨_, _, _, _, _, hprimary, -⟩ | ⟨-, hlocation⟩
  · rcases readsPrimary_iff.1 hprimary with ⟨_, rfl, -⟩ | ⟨_, rfl, -⟩ | ⟨_, rfl, -⟩ |
      ⟨_, _, _, rfl, -⟩ <;> rfl
  · rcases reads_locationPath_iff.1 hlocation with ⟨_, _, rfl, -⟩ | ⟨rfl, -⟩ | ⟨_, _, rfl, -⟩ |
      ⟨-, -, found, -, hfound⟩
    · rfl
    · rfl
    · rfl
    · have hstarts := startsStep_of_reads hfound
      unfold startsPath
      split
      case h_6 => exact hstarts
      all_goals rfl

/-- An expression starts with a path or with a minus sign, and a union with a path. -/
theorem startsPath_of_reads {level : Precedence} {e : Expr} {rest : List Token}
    (h : Reads (binary level tokens) e rest) :
    startsPath tokens ∨ level ≠ .union ∧ ∃ us, tokens = .operator .minus :: us := by
  obtain ⟨first, middle, hfirst, -⟩ := reads_binary_iff.1 h
  cases hnext : level.tighter? with
  | some next =>
    have := Precedence.rank_lt_of_tighter hnext
    rw [operand_of_tighter hnext] at hfirst
    refine (startsPath_of_reads hfirst).imp_right fun hminus ↦ ⟨?_, hminus.2⟩
    rintro rfl
    cases hnext
  | none =>
    cases level with
    | product =>
      rw [operand] at hfirst
      rcases reads_unary_iff.1 hfirst with ⟨us, _, rfl, -⟩ | ⟨-, hunion⟩
      · exact .inr ⟨by decide, us, rfl⟩
      · exact .inl ((startsPath_of_reads hunion).resolve_right fun hminus ↦ hminus.1 rfl)
    | union =>
      rw [operand] at hfirst
      exact .inl (startsPath_of_reads_path hfirst)
    | _ => cases hnext
termination_by level.rank
decreasing_by
  · subst_vars
    decide
  · exact Nat.lt_of_succ_lt ‹_›

/-- Steps leave the parenthesis of a call alone. -/
theorem eq_of_reads_call {name : String} (hname : isNodeType name = false)
    (h : Reads (steps (.name name :: .leftParen :: us)) ss rest) : rest = .leftParen :: us := by
  have hpredicates : Reads (predicates (.leftParen :: us)) [] (.leftParen :: us) :=
    reads_predicates_iff.2 (.inr ⟨by simp, rfl, rfl⟩)
  have htail : Reads (trailingSteps (.leftParen :: us)) [] (.leftParen :: us) :=
    reads_trailingSteps_iff.2 (.inr (.inr ⟨by simp, by simp, rfl, rfl⟩))
  have hstep : Reads (step (.name name :: .leftParen :: us)) (.step .child (nameTest name) [])
      (.leftParen :: us) :=
    reads_step_iff.2 (.inr (.inr ⟨by simp, by simp, .child, .name name :: .leftParen :: us,
      nameTest name, .leftParen :: us, [], by simp [axis], by simp [nodeTest, hname], rfl,
      hpredicates⟩))
  exact (h.unique (reads_steps_iff.2 ⟨_, _, [], hstep, rfl, htail⟩)).2

/-- A location path does not start like something that predicates and steps may follow. -/
theorem primary?_eq_none (h : Reads (locationPath tokens) e rest) (hends : Ends level rest) :
    primary? tokens = none := by
  rcases reads_locationPath_iff.1 h with ⟨us, found, rfl, -, -, -⟩ | ⟨rfl, -, -⟩ |
    ⟨us, found, rfl, -, -⟩ | ⟨-, -, found, -, hfound⟩
  · rw [primary?.eq_def]
  · rw [primary?.eq_def]
  · rw [primary?.eq_def]
  · have hstarts := startsStep_of_reads hfound
    rw [primary?.eq_def]
    split
    · cases hstarts
    · cases hstarts
    · cases hstarts
    · rename_i name us
      by_cases hname : isNodeType name
      · exact if_pos hname
      · rw [eq_of_reads_call (Bool.not_eq_true _ ▸ hname) hfound] at hends
        exact hends.elim
    · rfl

end Start

/-! ## The parsers read all of the grammar -/

namespace Grammar

section Parts

variable {ts us rest : List Token} {direction : Axis} {test : NodeTest}
  {filters args : List Expr} {ss : List Step}

private theorem reads_axis_name {name : String} (h : ∀ us, rest ≠ .doubleColon :: us) :
    Reads (axis (.name name :: rest)) .child (.name name :: rest) := by
  cases rest with
  | nil => exact Reads.ok_iff.2 ⟨rfl, rfl⟩
  | cons t us =>
    cases t with
    | doubleColon => exact absurd rfl (h us)
    | _ => exact Reads.ok_iff.2 ⟨rfl, rfl⟩

private theorem reads_nodeTest_name {name : String} (h : ∀ us, rest ≠ .leftParen :: us) :
    Reads (nodeTest (.name name :: rest)) (nameTest name) rest := by
  cases rest with
  | nil => exact Reads.ok_iff.2 ⟨rfl, rfl⟩
  | cons t us =>
    cases t with
    | leftParen => exact absurd rfl (h us)
    | _ => exact Reads.ok_iff.2 ⟨rfl, rfl⟩

theorem AxisSpecifier.reads (h : AxisSpecifier ts direction) (htest : Test us test)
    (hrest : ∀ ws, rest ≠ .doubleColon :: ws) :
    Reads (axis (ts ++ us ++ rest)) direction (us ++ rest) := by
  cases h with
  | children =>
    cases htest with
    | name => exact reads_axis_name hrest
    | _ => simp [axis]
  | attributes => simp [axis]
  | named h => simp [axis, h]

theorem Test.reads (h : Test ts test) (hrest : ∀ ws, rest ≠ .leftParen :: ws) :
    Reads (nodeTest (ts ++ rest)) test rest := by
  cases h with
  | star => simp [nodeTest]
  | name => exact reads_nodeTest_name hrest
  | _ => simp [nodeTest, isNodeType, reads_closeParen_iff, typeTest]

/-- A step with an axis and a test is none of the short ones. -/
theorem AxisSpecifier.ne_dot (h : AxisSpecifier ts direction) (htest : Test us test)
    (rest ws : List Token) :
    ts ++ us ++ rest ≠ .dot :: ws ∧ ts ++ us ++ rest ≠ .doubleDot :: ws := by
  cases h with
  | children => cases htest <;> simp
  | attributes | named => simp

theorem Predicates.ne_paren (h : Predicates ts filters) (hrest : LeavesStep rest)
    (ws : List Token) :
    ts ++ rest ≠ .leftParen :: ws ∧ ts ++ rest ≠ .doubleColon :: ws := by
  cases h with
  | nil => exact (hrest ws).2
  | cons => simp

theorem Tail.ne_bracket (h : Tail ts ss) (hrest : LeavesStep rest) (ws : List Token) :
    ts ++ rest ≠ .leftBracket :: ws := by
  cases h with
  | nil => exact (hrest ws).1
  | slash | doubleSlash => simp

theorem MoreArguments.ends (h : MoreArguments ts args) (level : Precedence) (rest : List Token) :
    Ends level (ts ++ .rightParen :: rest) ∧
      ∀ op us, ts ++ .rightParen :: rest ≠ .operator op :: us := by
  cases h with
  | nil => exact ⟨trivial, by simp⟩
  | cons => exact ⟨trivial, by simp⟩

end Parts

-- The induction is on derivations. Operations group to the left but are read from the left on, so
-- the statement about a level carries what is read after it.
mutual

theorem Level.reads {level : Precedence} {ts : List Token} {e : Expr} :
    Level level ts e → ∀ rest e' rest', Ends level rest →
      Reads (operations level e rest) e' rest' → Reads (binary level (ts ++ rest)) e' rest'
  | .operand h => by
    intro rest e' rest' hends hmore
    exact reads_binary_iff.2 ⟨e, rest, h.reads rest hends, hmore⟩
  | @Level.operation _ op ts us left right h hop hright => by
    intro rest e' rest' hends hmore
    rw [List.append_assoc, List.cons_append]
    refine h.reads _ e' rest' (.of_mem hop _) (reads_operations_iff.2 (.inl ?_))
    exact ⟨op, us ++ rest, right, rest, rfl, hop, hright.reads rest hends, hmore⟩

theorem Operand.reads {level : Precedence} {ts : List Token} {e : Expr} :
    Operand level ts e → ∀ rest, Ends level rest → Reads (operand level (ts ++ rest)) e rest
  | .tighter hnext h => by
    intro rest hends
    have hlt := Nat.lt_of_succ_lt (Precedence.rank_lt_of_tighter hnext)
    rw [operand_of_tighter hnext]
    exact h.reads rest e rest (hends.mono (Nat.le_of_lt hlt)) (hends.reads_operations hlt e)
  | .unary h => by
    intro rest hends
    rw [operand]
    exact h.reads rest hends
  | .path h => by
    intro rest hends
    rw [operand]
    exact h.reads rest hends

theorem Unary.reads {ts : List Token} {e : Expr} :
    Unary ts e → ∀ rest, Ends .product rest → Reads (unary (ts ++ rest)) e rest
  | .negation h => by
    intro rest hends
    exact reads_unary_iff.2 (.inl ⟨_, _, rfl, rfl, h.reads rest hends⟩)
  | .union h => by
    intro rest hends
    have hunion := h.reads rest e rest (hends.mono (by decide))
      (hends.reads_operations (by decide) e)
    refine reads_unary_iff.2 (.inr ⟨?_, hunion⟩)
    intro us hus
    rw [hus] at hunion
    rcases startsPath_of_reads hunion with hstarts | ⟨hlevel, -⟩
    · cases hstarts
    · exact hlevel rfl

theorem Path.reads {ts : List Token} {e : Expr} :
    Path ts e → ∀ rest, Ends .union rest → Reads (path (ts ++ rest)) e rest
  | .location h => by
    intro rest hends
    have hlocation := h.reads rest hends
    exact reads_path_iff.2 (.inr ⟨primary?_eq_none hlocation hends, hlocation⟩)
  | .primary h => by
    intro rest hends
    exact reads_path_iff.2 (.inl ⟨e, rest, [], rest, [], h.reads rest,
      hends.leavesStep.reads_predicates, rfl, hends.reads_trailingSteps⟩)
  | @Path.filter ts us vs e filters steps h hfilters htail hne => by
    intro rest hends
    rw [List.append_assoc, List.append_assoc]
    exact reads_path_iff.2 (.inl ⟨e, us ++ (vs ++ rest), filters, vs ++ rest, steps, h.reads _,
      hfilters.reads _ (htail.ne_bracket hends.leavesStep), if_neg (not_and_or.2 hne),
      htail.reads rest hends⟩)

theorem LocationPath.reads {ts : List Token} {e : Expr} :
    LocationPath ts e → ∀ rest, Ends .union rest → Reads (locationPath (ts ++ rest)) e rest
  | .document => by
    intro rest hends
    exact reads_locationPath_iff.2 (.inr (.inl ⟨rfl, hends.startsStep_eq_false, rfl⟩))
  | .absolute h => by
    intro rest hends
    have hsteps := h.reads rest hends
    exact reads_locationPath_iff.2 (.inl ⟨_, _, rfl, startsStep_of_reads hsteps, rfl, hsteps⟩)
  | .descendants h => by
    intro rest hends
    exact reads_locationPath_iff.2 (.inr (.inr (.inl ⟨_, _, rfl, rfl, h.reads rest hends⟩)))
  | .relative h => by
    intro rest hends
    have hsteps := h.reads rest hends
    have hstarts := startsStep_of_reads hsteps
    refine reads_locationPath_iff.2 (.inr (.inr (.inr ⟨?_, ?_, _, rfl, hsteps⟩)))
    · intro us hus
      rw [hus] at hstarts
      cases hstarts
    · intro us hus
      rw [hus] at hstarts
      cases hstarts

theorem Tail.reads {ts : List Token} {ss : List Step} :
    Tail ts ss → ∀ rest, Ends .union rest → Reads (trailingSteps (ts ++ rest)) ss rest
  | .nil => fun _ hends ↦ hends.reads_trailingSteps
  | .slash h => fun rest hends ↦ reads_trailingSteps_iff.2 (.inl ⟨_, rfl, h.reads rest hends⟩)
  | .doubleSlash h => fun rest hends ↦
    reads_trailingSteps_iff.2 (.inr (.inl ⟨_, _, rfl, rfl, h.reads rest hends⟩))

theorem Steps.reads {ts : List Token} {ss : List Step} :
    Steps ts ss → ∀ rest, Ends .union rest → Reads (steps (ts ++ rest)) ss rest
  | .single h => by
    intro rest hends
    exact reads_steps_iff.2
      ⟨_, rest, [], h.reads rest hends.leavesStep, rfl, hends.reads_trailingSteps⟩
  | .slash h hmore => by
    intro rest hends
    rw [List.append_assoc, List.cons_append]
    exact reads_steps_iff.2 ⟨_, _, _, h.reads _ (.slash _), rfl,
      reads_trailingSteps_iff.2 (.inl ⟨_, rfl, hmore.reads rest hends⟩)⟩
  | .doubleSlash h hmore => by
    intro rest hends
    rw [List.append_assoc, List.cons_append]
    exact reads_steps_iff.2 ⟨_, _, _, h.reads _ (.doubleSlash _), rfl,
      reads_trailingSteps_iff.2 (.inr (.inl ⟨_, _, rfl, rfl, hmore.reads rest hends⟩))⟩

theorem OneStep.reads {ts : List Token} {s : Step} :
    OneStep ts s → ∀ rest, LeavesStep rest → Reads (step (ts ++ rest)) s rest
  | .self => fun _ _ ↦ reads_step_iff.2 (.inl ⟨rfl, rfl⟩)
  | .parent => fun _ _ ↦ reads_step_iff.2 (.inr (.inl ⟨rfl, rfl⟩))
  | @OneStep.step ts us vs direction test filters hdirection htest hfilters => by
    intro rest hrest
    have hne := hfilters.ne_paren hrest
    rw [List.append_assoc]
    refine reads_step_iff.2 (.inr (.inr ⟨fun ws ↦ (hdirection.ne_dot htest _ ws).1,
      fun ws ↦ (hdirection.ne_dot htest _ ws).2, direction, us ++ (vs ++ rest), test, vs ++ rest,
      filters, hdirection.reads htest fun ws ↦ (hne ws).2, htest.reads fun ws ↦ (hne ws).1, rfl,
      ?_⟩))
    exact hfilters.reads rest fun ws ↦ (hrest ws).1

theorem Predicates.reads {ts : List Token} {filters : List Expr} :
    Predicates ts filters → ∀ rest, (∀ us, rest ≠ .leftBracket :: us) →
      Reads (predicates (ts ++ rest)) filters rest
  | .nil => fun _ hrest ↦ reads_predicates_iff.2 (.inr ⟨hrest, rfl, rfl⟩)
  | @Predicates.cons ts us e filters h hmore => by
    intro rest hrest
    have hinner := h.reads (.rightBracket :: (us ++ rest)) e _ trivial
      (reads_operations_of_ne (by simp))
    refine reads_predicates_iff.2 (.inl ⟨_, e, us ++ rest, filters, ?_, hinner, rfl,
      hmore.reads rest hrest⟩)
    simp

theorem Primary.reads {ts : List Token} {e : Expr} :
    Primary ts e → ∀ rest, ReadsPrimary (ts ++ rest) e rest
  | .literal text => fun rest ↦ readsPrimary_iff.2 (.inl ⟨text, rfl, rfl⟩)
  | .number value => fun rest ↦ readsPrimary_iff.2 (.inr (.inl ⟨value, rfl, rfl⟩))
  | @Primary.parens ts e h => by
    intro rest
    have hinner := h.reads (.rightParen :: rest) e _ trivial (reads_operations_of_ne (by simp))
    exact readsPrimary_iff.2 (.inr (.inr (.inl ⟨_, by simp, hinner⟩)))
  | @Primary.call name ts args hname h => by
    intro rest
    have hargs := h.reads rest
    exact readsPrimary_iff.2 (.inr (.inr (.inr ⟨name, _, args, by simp,
      isNodeType_eq_false_iff.2 hname, rfl, hargs⟩)))

theorem Arguments.reads {ts : List Token} {args : List Expr} :
    Arguments ts args →
      ∀ rest, Reads (arguments (ts ++ .rightParen :: rest)) args (.rightParen :: rest)
  | .nil => fun rest ↦ reads_arguments_iff.2 (.inl ⟨rest, rfl, rfl, rfl⟩)
  | @Arguments.cons ts us e args h hmore => by
    intro rest
    obtain ⟨hends, hne⟩ := hmore.ends .or rest
    have hfirst := h.reads _ e _ hends (reads_operations_of_ne hne)
    rw [List.append_assoc]
    refine reads_arguments_iff.2 (.inr ⟨?_, e, _, args, hfirst, rfl, hmore.reads rest⟩)
    intro ws hws
    rw [hws] at hfirst
    rcases startsPath_of_reads hfirst with hstarts | ⟨-, _, heq⟩
    · cases hstarts
    · cases heq

theorem MoreArguments.reads {ts : List Token} {args : List Expr} :
    MoreArguments ts args →
      ∀ rest, Reads (moreArguments (ts ++ .rightParen :: rest)) args (.rightParen :: rest)
  | .nil => fun rest ↦ reads_moreArguments_iff.2 (.inr ⟨by simp, rfl, rfl⟩)
  | @MoreArguments.cons ts us e args h hmore => by
    intro rest
    obtain ⟨hends, hne⟩ := hmore.ends .or rest
    have hnext := h.reads _ e _ hends (reads_operations_of_ne hne)
    exact reads_moreArguments_iff.2 (.inl ⟨ts ++ (us ++ .rightParen :: rest), e, _, args, by simp,
      hnext, rfl, hmore.reads rest⟩)

end

end Grammar

/-! ## Whole queries -/

theorem parse_eq_ok_iff {tokens : List Token} {e : Expr} :
    parse tokens = .ok e ↔ Reads (binary .or tokens) e [] := by
  unfold parse
  constructor
  · intro h
    obtain ⟨⟨value, rest, hlt⟩, hwhole, h⟩ := bind_eq_ok_iff.1 h
    cases rest with
    | nil =>
      cases h
      exact ⟨hlt, hwhole⟩
    | cons => cases h
  · rintro ⟨hlt, hwhole⟩
    exact bind_eq_ok_iff.2 ⟨_, hwhole, rfl⟩

theorem Grammar.Level.parse {tokens : List Token} {e : Expr} (h : Grammar.Level .or tokens e) :
    parse tokens = .ok e := by
  have hwhole := h.reads [] e [] trivial (reads_operations_of_ne (by simp))
  rw [List.append_nil] at hwhole
  exact parse_eq_ok_iff.2 hwhole

/-- The parser accepts a list of tokens as an expression exactly if the grammar derives the
expression from it, and no list of tokens derives two expressions. -/
theorem parse_iff_derived (tokens : List Token) :
    (∀ e, parse tokens = .ok e ↔ Grammar.Level .or tokens e) ∧
      ∀ e e', Grammar.Level .or tokens e → Grammar.Level .or tokens e' → e = e' := by
  refine ⟨fun e ↦ ⟨fun h ↦ ?_, Grammar.Level.parse⟩, fun e e' h h' ↦ ?_⟩
  · obtain ⟨ts, rfl, hts⟩ := level_of_reads (parse_eq_ok_iff.1 h)
    rwa [List.append_nil]
  · exact Except.ok.inj (h.parse.symm.trans h'.parse)

/-- The minus sign of `-a|b` negates the union of both paths. -/
theorem parse_iff_derived_negation :
    parse [.operator .minus, .name "a", .operator .union, .name "b"] =
      .ok (.negate (.binary .union (.path false [.step .child (nameTest "a") []])
        (.path false [.step .child (nameTest "b") []]))) := by
  have hpath (name : String) :
      Grammar.Operand .union [.name name] (.path false [.step .child (nameTest name) []]) :=
    .path (.location (.relative (.single (.step .children (.name name) .nil))))
  have hunion := Grammar.Level.operation (.operand (hpath "a")) (.head _) (hpath "b")
  have hproduct := Grammar.Level.operand (.unary (.negation (.union hunion)))
  refine ((parse_iff_derived _).1 _).2 ?_
  exact .operand (.tighter rfl (.operand (.tighter rfl (.operand (.tighter rfl (.operand
    (.tighter rfl (.operand (.tighter rfl hproduct)))))))))

end XmlInspect.Query
