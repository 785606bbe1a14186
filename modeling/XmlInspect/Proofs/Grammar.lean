import XmlInspect.Proofs.Located
import XmlInspect.Query.Parse

/-!
# The grammar of queries

The grammar is given without the parsers: for each of its parts, which tokens make it up and what
they mean. It knows nothing of what follows a part and never looks ahead.

The parsers are then opened once, each by a lemma that says when it understands a value and leaves a
rest. With these the recursion of the parsers is followed to see that they keep to the grammar: the
tokens they take derive what they return. That they take everything the grammar derives depends on
what may follow, and is left to another module.
-/

namespace XmlInspect.Query

/-! ## The grammar -/

/-- The next tighter level of binary operators. Between the operators of the last two stand
negations and paths. -/
def Precedence.tighter? : Precedence → Option Precedence
  | or => some and
  | and => some equality
  | equality => some relation
  | relation => some sum
  | sum => some product
  | product => none
  | union => none

namespace Grammar

/-- `('@' | axis '::')?` -/
inductive AxisSpecifier : List Token → Axis → Prop
  | children : AxisSpecifier [] .child
  | attributes : AxisSpecifier [.atSign] .attr
  | named {name : String} {axis : Axis} :
    Axis.ofName? name = some axis → AxisSpecifier [.name name, .doubleColon] axis

/-- `'*' | Name | ('node' | 'text' | 'comment') '(' ')'` -/
inductive Test : List Token → NodeTest → Prop
  | star : Test [.star] (.anyName none)
  | name (name : String) : Test [.name name] (nameTest name)
  | node : Test [.name "node", .leftParen, .rightParen] .anyNode
  | text : Test [.name "text", .leftParen, .rightParen] .text
  | comment : Test [.name "comment", .leftParen, .rightParen] .comment

mutual

/-- `Operand (operator Operand)*`, with the operators of a level, which group to the left. -/
inductive Level : Precedence → List Token → Expr → Prop
  | operand {level : Precedence} {ts : List Token} {e : Expr} :
    Operand level ts e → Level level ts e
  | operation {level : Precedence} {op : Operator} {ts us : List Token} {left right : Expr} :
    Level level ts left → op ∈ level.operators → Operand level us right →
      Level level (ts ++ .operator op :: us) (.binary op left right)

/-- What stands between the operators of a level. -/
inductive Operand : Precedence → List Token → Expr → Prop
  | tighter {level next : Precedence} {ts : List Token} {e : Expr} :
    level.tighter? = some next → Level next ts e → Operand level ts e
  | unary {ts : List Token} {e : Expr} : Unary ts e → Operand .product ts e
  | path {ts : List Token} {e : Expr} : Path ts e → Operand .union ts e

/-- `'-' Unary | Path ('|' Path)*` -/
inductive Unary : List Token → Expr → Prop
  | negation {ts : List Token} {e : Expr} :
    Unary ts e → Unary (.operator .minus :: ts) (.negate e)
  | union {ts : List Token} {e : Expr} : Level .union ts e → Unary ts e

/-- `LocationPath | Primary Predicate* (('/' | '//') Steps)?`, where something is filtered only if
there is a predicate or a step. -/
inductive Path : List Token → Expr → Prop
  | location {ts : List Token} {e : Expr} : LocationPath ts e → Path ts e
  | primary {ts : List Token} {e : Expr} : Primary ts e → Path ts e
  | filter {ts us vs : List Token} {e : Expr} {filters : List Expr} {steps : List Step} :
    Primary ts e → Predicates us filters → Tail vs steps → filters ≠ [] ∨ steps ≠ [] →
      Path (ts ++ us ++ vs) (.filter e filters steps)

/-- `'/' Steps? | '//' Steps | Steps` -/
inductive LocationPath : List Token → Expr → Prop
  | document : LocationPath [.slash] (.path true [])
  | absolute {ts : List Token} {steps : List Step} :
    Steps ts steps → LocationPath (.slash :: ts) (.path true steps)
  | descendants {ts : List Token} {steps : List Step} :
    Steps ts steps → LocationPath (.doubleSlash :: ts) (.path true (.anyDescendant :: steps))
  | relative {ts : List Token} {steps : List Step} :
    Steps ts steps → LocationPath ts (.path false steps)

/-- `(('/' | '//') Steps)?` -/
inductive Tail : List Token → List Step → Prop
  | nil : Tail [] []
  | slash {ts : List Token} {steps : List Step} : Steps ts steps → Tail (.slash :: ts) steps
  | doubleSlash {ts : List Token} {steps : List Step} :
    Steps ts steps → Tail (.doubleSlash :: ts) (.anyDescendant :: steps)

/-- `Step (('/' | '//') Step)*` -/
inductive Steps : List Token → List Step → Prop
  | single {ts : List Token} {step : Step} : OneStep ts step → Steps ts [step]
  | slash {ts us : List Token} {step : Step} {steps : List Step} :
    OneStep ts step → Steps us steps → Steps (ts ++ .slash :: us) (step :: steps)
  | doubleSlash {ts us : List Token} {step : Step} {steps : List Step} :
    OneStep ts step → Steps us steps →
      Steps (ts ++ .doubleSlash :: us) (step :: .anyDescendant :: steps)

/-- `'.' | '..' | ('@' | axis '::')? NodeTest Predicate*` -/
inductive OneStep : List Token → Step → Prop
  | self : OneStep [.dot] (.step .self .anyNode [])
  | parent : OneStep [.doubleDot] (.step .parent .anyNode [])
  | step {ts us vs : List Token} {axis : Axis} {test : NodeTest} {filters : List Expr} :
    AxisSpecifier ts axis → Test us test → Predicates vs filters →
      OneStep (ts ++ us ++ vs) (.step axis test filters)

/-- `('[' Or ']')*` -/
inductive Predicates : List Token → List Expr → Prop
  | nil : Predicates [] []
  | cons {ts us : List Token} {e : Expr} {filters : List Expr} :
    Level .or ts e → Predicates us filters →
      Predicates (.leftBracket :: ts ++ .rightBracket :: us) (e :: filters)

/-- `Literal | Number | '(' Or ')' | Name '(' Arguments ')'`, where the name is no node type. -/
inductive Primary : List Token → Expr → Prop
  | literal (text : String) : Primary [.literal text] (.literal text)
  | number (value : Float) : Primary [.number value] (.number value)
  | parens {ts : List Token} {e : Expr} :
    Level .or ts e → Primary (.leftParen :: ts ++ [.rightParen]) e
  | call {name : String} {ts : List Token} {args : List Expr} :
    name ∉ ["node", "text", "comment", "processing-instruction"] → Arguments ts args →
      Primary (.name name :: .leftParen :: ts ++ [.rightParen]) (.call name args)

/-- `(Or (',' Or)*)?` -/
inductive Arguments : List Token → List Expr → Prop
  | nil : Arguments [] []
  | cons {ts us : List Token} {e : Expr} {args : List Expr} :
    Level .or ts e → MoreArguments us args → Arguments (ts ++ us) (e :: args)

/-- `(',' Or)*` -/
inductive MoreArguments : List Token → List Expr → Prop
  | nil : MoreArguments [] []
  | cons {ts us : List Token} {e : Expr} {args : List Expr} :
    Level .or ts e → MoreArguments us args → MoreArguments (.comma :: ts ++ us) (e :: args)

end

private theorem Predicates.eq_nil {ts : List Token} (h : Predicates ts []) : ts = [] := by
  cases h
  rfl

private theorem Tail.eq_nil {ts : List Token} (h : Tail ts []) : ts = [] := by
  cases h with
  | nil => rfl
  | slash h => cases h

end Grammar

theorem Precedence.rank_lt_of_tighter {level next : Precedence} (h : level.tighter? = some next) :
    next.rank + 1 < level.rank := by
  cases level with
  | product | union => cases h
  | _ =>
    cases h
    decide

/-! ## What the parsers read -/

/-- A parser understands a value and leaves the rest of its tokens. -/
def Reads {α : Type} {bound : Nat} (result : Except Fault (Parsed α bound)) (value : α)
    (rest : List Token) : Prop :=
  ∃ h, result = .ok ⟨value, rest, h⟩

namespace Reads

variable {α β : Type} {m n : Nat} {x : Except Fault (Parsed α m)} {a : α} {b : β}
  {rest : List Token}

theorem length_lt (h : Reads x a rest) : rest.length < m := h.1

theorem unique {a' : α} {rest' : List Token} (h : Reads x a rest) (h' : Reads x a' rest') :
    a = a' ∧ rest = rest' := by
  obtain ⟨_, rfl⟩ := h
  obtain ⟨_, h'⟩ := h'
  cases h'
  exact ⟨rfl, rfl⟩

@[simp] theorem ok_iff {parsed : Parsed α m} :
    Reads (.ok parsed) a rest ↔ parsed.value = a ∧ parsed.rest = rest := by
  constructor
  · rintro ⟨_, h⟩
    cases h
    exact ⟨rfl, rfl⟩
  · rintro ⟨rfl, rfl⟩
    exact ⟨parsed.lt_bound, rfl⟩

@[simp] theorem not_error {fault : Fault} :
    ¬ Reads (.error fault : Except Fault (Parsed α m)) a rest := by
  rintro ⟨_, h⟩
  cases h

/-- What comes after a parser sees the value and the rest. -/
@[simp] theorem bind_iff {f : Parsed α m → Except Fault (Parsed β n)} :
    Reads (x >>= f) b rest ↔
      ∃ a middle, ∃ h : Reads x a middle, Reads (f ⟨a, middle, h.length_lt⟩) b rest := by
  constructor
  · rintro ⟨hlt, h⟩
    obtain ⟨⟨a, middle, hmiddle⟩, hx, hf⟩ := bind_eq_ok_iff.1 h
    exact ⟨a, middle, ⟨hmiddle, hx⟩, hlt, hf⟩
  · rintro ⟨a, middle, ⟨hmiddle, hx⟩, hlt, hf⟩
    exact ⟨hlt, bind_eq_ok_iff.2 ⟨_, hx, hf⟩⟩

@[simp] theorem map_iff {f : Parsed α m → Parsed β n} :
    Reads (f <$> x) b rest ↔
      ∃ a middle, ∃ h : Reads x a middle, Reads (.ok (f ⟨a, middle, h.length_lt⟩)) b rest := by
  rw [map_eq_pure_bind, bind_iff]
  rfl

end Reads

namespace Parsed

variable {α β : Type} {m n : Nat} (parsed : Parsed α m)

@[simp] theorem value_weaken (h : m ≤ n) : (parsed.weaken h).value = parsed.value := rfl

@[simp] theorem rest_weaken (h : m ≤ n) : (parsed.weaken h).rest = parsed.rest := rfl

@[simp] theorem value_map (f : α → β) : (parsed.map f).value = f parsed.value := rfl

@[simp] theorem rest_map (f : α → β) : (parsed.map f).rest = parsed.rest := rfl

end Parsed

section Opened

variable {level : Precedence} {tokens rest : List Token} {e left : Expr} {es : List Expr}
  {ss : List Step} {s : Step}

theorem reads_closeParen_iff {u : Unit} :
    Reads (closeParen tokens) u rest ↔ tokens = .rightParen :: rest := by
  unfold closeParen
  split
  · simp
  · rename_i hne
    simpa [expected] using hne rest

private theorem reads_closeBracket_iff {u : Unit} :
    Reads (closeBracket tokens) u rest ↔ tokens = .rightBracket :: rest := by
  unfold closeBracket
  split
  · simp
  · rename_i hne
    simpa [expected] using hne rest

theorem reads_binary_iff :
    Reads (binary level tokens) e rest ↔ ∃ first middle, Reads (operand level tokens) first middle ∧
      Reads (operations level first middle) e rest := by
  rw [binary]
  simp

theorem reads_operations_iff :
    Reads (operations level left tokens) e rest ↔
      (∃ op us right middle, tokens = .operator op :: us ∧ op ∈ level.operators ∧
        Reads (operand level us) right middle ∧
        Reads (operations level (.binary op left right) middle) e rest) ∨
      (∀ op ∈ level.operators, ∀ us, tokens ≠ .operator op :: us) ∧ left = e ∧ tokens = rest := by
  rw [operations.eq_def]
  split
  · rename_i op us
    by_cases hop : op ∈ level.operators
    · have hnot : ¬ ∀ op' ∈ level.operators, op ≠ op' := fun h ↦ h op hop rfl
      simp [hop, hnot]
    · have hall : ∀ op' ∈ level.operators, op ≠ op' := fun op' hop' he ↦ hop (he ▸ hop')
      simpa [hop] using fun _ _ ↦ hall
  · rename_i hne
    have hne : ∀ op us, tokens ≠ .operator op :: us := hne
    simp [hne]

theorem reads_unary_iff :
    Reads (unary tokens) e rest ↔
      (∃ us inner, tokens = .operator .minus :: us ∧ .negate inner = e ∧
        Reads (unary us) inner rest) ∨
      (∀ us, tokens ≠ .operator .minus :: us) ∧ Reads (binary .union tokens) e rest := by
  rw [unary.eq_def]
  split
  · simp
  · rename_i hne
    have hne : ∀ us, tokens ≠ .operator .minus :: us := hne
    simp [hne]

/-- Something that predicates and steps may follow is understood, and a rest is left. -/
def ReadsPrimary (tokens : List Token) (e : Expr) (rest : List Token) : Prop :=
  ∃ found, primary? tokens = some found ∧ Reads found e rest

private theorem ReadsPrimary.length_lt (h : ReadsPrimary tokens e rest) :
    rest.length < tokens.length :=
  h.choose_spec.2.length_lt

theorem readsPrimary_iff :
    ReadsPrimary tokens e rest ↔
      (∃ text, tokens = .literal text :: rest ∧ .literal text = e) ∨
      (∃ value, tokens = .number value :: rest ∧ .number value = e) ∨
      (∃ us, tokens = .leftParen :: us ∧ Reads (binary .or us) e (.rightParen :: rest)) ∨
      ∃ name us args, tokens = .name name :: .leftParen :: us ∧ isNodeType name = false ∧
        .call name args = e ∧ Reads (arguments us) args (.rightParen :: rest) := by
  unfold ReadsPrimary
  rw [primary?.eq_def]
  split
  · simp [and_comm]
  · simp [and_comm]
  · simp [reads_closeParen_iff]
  · rename_i name us
    by_cases hname : isNodeType name
    · simp [hname]
    · simp [hname, reads_closeParen_iff]
  · rename_i hliteral hnumber hparen hcall
    have hliteral : ∀ text us, tokens ≠ .literal text :: us := hliteral
    have hnumber : ∀ value us, tokens ≠ .number value :: us := hnumber
    have hparen : ∀ us, tokens ≠ .leftParen :: us := hparen
    have hcall : ∀ name us, tokens ≠ .name name :: .leftParen :: us := hcall
    simp [hliteral, hnumber, hparen, hcall]

theorem reads_path_iff :
    Reads (path tokens) e rest ↔
      (∃ first middle filters middle' tail, ReadsPrimary tokens first middle ∧
        Reads (predicates middle) filters middle' ∧
        (if filters = [] ∧ tail = [] then first else .filter first filters tail) = e ∧
        Reads (trailingSteps middle') tail rest) ∨
      primary? tokens = none ∧ Reads (locationPath tokens) e rest := by
  rw [path.eq_def]
  split
  · rename_i found hfound
    simp [ReadsPrimary, hfound]
  · rename_i hnone
    simp [ReadsPrimary, hnone]

theorem reads_arguments_iff :
    Reads (arguments tokens) es rest ↔
      (∃ us, tokens = .rightParen :: us ∧ [] = es ∧ tokens = rest) ∨
      (∀ us, tokens ≠ .rightParen :: us) ∧ ∃ first middle others,
        Reads (binary .or tokens) first middle ∧ first :: others = es ∧
        Reads (moreArguments middle) others rest := by
  rw [arguments.eq_def]
  split
  · simp
  · rename_i hne
    have hne : ∀ us, tokens ≠ .rightParen :: us := hne
    simp [hne]

theorem reads_moreArguments_iff :
    Reads (moreArguments tokens) es rest ↔
      (∃ us next middle others, tokens = .comma :: us ∧ Reads (binary .or us) next middle ∧
        next :: others = es ∧ Reads (moreArguments middle) others rest) ∨
      (∀ us, tokens ≠ .comma :: us) ∧ [] = es ∧ tokens = rest := by
  rw [moreArguments.eq_def]
  split
  · simp
  · rename_i hne
    have hne : ∀ us, tokens ≠ .comma :: us := hne
    simp [hne]

theorem reads_locationPath_iff :
    Reads (locationPath tokens) e rest ↔
      (∃ us found, tokens = .slash :: us ∧ startsStep us ∧ .path true found = e ∧
        Reads (steps us) found rest) ∨
      (tokens = .slash :: rest ∧ startsStep rest = false ∧ .path true [] = e) ∨
      (∃ us found, tokens = .doubleSlash :: us ∧
        .path true (.anyDescendant :: found) = e ∧ Reads (steps us) found rest) ∨
      (∀ us, tokens ≠ .slash :: us) ∧ (∀ us, tokens ≠ .doubleSlash :: us) ∧
        ∃ found, .path false found = e ∧ Reads (steps tokens) found rest := by
  rw [locationPath.eq_def]
  split
  · rename_i us
    by_cases hstarts : startsStep us
    · have hnot : ¬ (us = rest ∧ startsStep rest = false ∧ .path true [] = e) := by
        rintro ⟨rfl, hnot, -⟩
        rw [hstarts] at hnot
        cases hnot
      simp [hstarts, hnot]
    · have hrest : us = rest → startsStep rest = false := by
        rintro rfl
        exact Bool.not_eq_true _ ▸ hstarts
      simpa [hstarts, and_comm] using fun h _ ↦ hrest h
  · simp
  · rename_i hslash hdouble
    have hslash : ∀ us, tokens ≠ .slash :: us := hslash
    have hdouble : ∀ us, tokens ≠ .doubleSlash :: us := hdouble
    simp [hslash, hdouble]

theorem reads_steps_iff :
    Reads (steps tokens) ss rest ↔ ∃ first middle others, Reads (step tokens) first middle ∧
      first :: others = ss ∧ Reads (trailingSteps middle) others rest := by
  rw [steps]
  simp

theorem reads_trailingSteps_iff :
    Reads (trailingSteps tokens) ss rest ↔
      (∃ us, tokens = .slash :: us ∧ Reads (steps us) ss rest) ∨
      (∃ us found, tokens = .doubleSlash :: us ∧ .anyDescendant :: found = ss ∧
        Reads (steps us) found rest) ∨
      (∀ us, tokens ≠ .slash :: us) ∧ (∀ us, tokens ≠ .doubleSlash :: us) ∧ [] = ss ∧
        tokens = rest := by
  rw [trailingSteps.eq_def]
  split
  · simp
  · simp
  · rename_i hslash hdouble
    have hslash : ∀ us, tokens ≠ .slash :: us := hslash
    have hdouble : ∀ us, tokens ≠ .doubleSlash :: us := hdouble
    simp [hslash, hdouble]

theorem reads_step_iff :
    Reads (step tokens) s rest ↔
      (tokens = .dot :: rest ∧ .step .self .anyNode [] = s) ∨
      (tokens = .doubleDot :: rest ∧ .step .parent .anyNode [] = s) ∨
      (∀ us, tokens ≠ .dot :: us) ∧ (∀ us, tokens ≠ .doubleDot :: us) ∧
        ∃ direction middle test middle' filters, Reads (axis tokens) direction middle ∧
          Reads (nodeTest middle) test middle' ∧ .step direction test filters = s ∧
          Reads (predicates middle') filters rest := by
  rw [step.eq_def]
  split
  · simp [and_comm]
  · simp [and_comm]
  · rename_i hdot hdouble
    have hdot : ∀ us, tokens ≠ .dot :: us := hdot
    have hdouble : ∀ us, tokens ≠ .doubleDot :: us := hdouble
    simp [hdot, hdouble]

theorem reads_predicates_iff :
    Reads (predicates tokens) es rest ↔
      (∃ us inner middle others, tokens = .leftBracket :: us ∧
        Reads (binary .or us) inner (.rightBracket :: middle) ∧
        inner :: others = es ∧ Reads (predicates middle) others rest) ∨
      (∀ us, tokens ≠ .leftBracket :: us) ∧ [] = es ∧ tokens = rest := by
  rw [predicates.eq_def]
  split
  · simp [reads_closeBracket_iff]
  · rename_i hne
    have hne : ∀ us, tokens ≠ .leftBracket :: us := hne
    simp [hne]

end Opened

/-! ## The parsers keep to the grammar -/

theorem isNodeType_eq_false_iff {name : String} :
    isNodeType name = false ↔ name ∉ ["node", "text", "comment", "processing-instruction"] := by
  simp [isNodeType, and_assoc]

theorem operand_of_tighter {level next : Precedence} (h : level.tighter? = some next)
    (tokens : List Token) : operand level tokens = binary next tokens := by
  cases level with
  | product | union => cases h
  | _ =>
    cases h
    rw [operand]

open Grammar

private theorem axisSpecifier_of_reads {tokens rest : List Token} {direction : Axis}
    (h : Reads (axis tokens) direction rest) :
    ∃ ts, tokens = ts ++ rest ∧ AxisSpecifier ts direction := by
  unfold axis at h
  split at h
  · obtain ⟨rfl, rfl⟩ := Reads.ok_iff.1 h
    exact ⟨[.atSign], rfl, .attributes⟩
  · rename_i name us
    split at h
    · rename_i axis haxis
      obtain ⟨rfl, rfl⟩ := Reads.ok_iff.1 h
      exact ⟨[.name name, .doubleColon], rfl, .named haxis⟩
    · exact absurd h Reads.not_error
  · obtain ⟨rfl, rfl⟩ := Reads.ok_iff.1 h
    exact ⟨[], rfl, .children⟩

private theorem test_of_typeTest {name : String} {test : NodeTest} (h : typeTest name = .ok test) :
    Test [.name name, .leftParen, .rightParen] test := by
  unfold typeTest at h
  split at h
  · rename_i hname
    cases h
    exact hname ▸ .node
  split at h
  · rename_i hname
    cases h
    exact hname ▸ .text
  split at h
  · rename_i hname
    cases h
    exact hname ▸ .comment
  · cases h

private theorem test_of_reads {tokens rest : List Token} {test : NodeTest}
    (h : Reads (nodeTest tokens) test rest) : ∃ ts, tokens = ts ++ rest ∧ Test ts test := by
  unfold nodeTest at h
  split at h
  · obtain ⟨rfl, rfl⟩ := Reads.ok_iff.1 h
    exact ⟨[.star], rfl, .star⟩
  · rename_i name us
    split at h
    · obtain ⟨_, middle, hclose, hlt, h⟩ := Reads.bind_iff.1 h
      obtain rfl := reads_closeParen_iff.1 hclose
      obtain ⟨test', htest, h⟩ := bind_eq_ok_iff.1 h
      cases h
      exact ⟨[.name name, .leftParen, .rightParen], rfl, test_of_typeTest htest⟩
    · obtain ⟨rfl, rfl⟩ := Reads.ok_iff.1 h
      exact ⟨[.name name], rfl, .name name⟩
  · rename_i name us _
    obtain ⟨rfl, rfl⟩ := Reads.ok_iff.1 h
    exact ⟨[.name name], rfl, .name name⟩
  · exact absurd h Reads.not_error

-- The recursion is that of the parsers: fewer tokens, or as many for a tighter part.
mutual

theorem level_of_reads {level : Precedence} {tokens rest : List Token} {e : Expr}
    (h : Reads (binary level tokens) e rest) : ∃ ts, tokens = ts ++ rest ∧ Level level ts e := by
  obtain ⟨first, middle, hfirst, hmore⟩ := reads_binary_iff.1 h
  have := hfirst.length_lt
  obtain ⟨ts, rfl, hts⟩ := operand_of_reads hfirst
  obtain ⟨us, rfl, hus⟩ := operations_of_reads hmore (.operand hts)
  exact ⟨ts ++ us, by simp, hus⟩
termination_by (tokens.length, level.rank + 1)

/-- Further operations are derived together with their left side. -/
theorem operations_of_reads {level : Precedence} {tokens rest ts : List Token} {left e : Expr}
    (h : Reads (operations level left tokens) e rest) (hleft : Level level ts left) :
    ∃ us, tokens = us ++ rest ∧ Level level (ts ++ us) e := by
  rcases reads_operations_iff.1 h with ⟨op, us, right, middle, rfl, hop, hright, hmore⟩ |
    ⟨-, rfl, rfl⟩
  · have := hright.length_lt
    obtain ⟨us, rfl, hus⟩ := operand_of_reads hright
    obtain ⟨vs, rfl, hvs⟩ := operations_of_reads hmore (.operation hleft hop hus)
    exact ⟨.operator op :: us ++ vs, by simp, by simpa using hvs⟩
  · exact ⟨[], rfl, by simpa using hleft⟩
termination_by (tokens.length, 0)

theorem operand_of_reads {level : Precedence} {tokens rest : List Token} {e : Expr}
    (h : Reads (operand level tokens) e rest) :
    ∃ ts, tokens = ts ++ rest ∧ Operand level ts e := by
  cases hnext : level.tighter? with
  | some next =>
    have := Precedence.rank_lt_of_tighter hnext
    rw [operand_of_tighter hnext] at h
    obtain ⟨ts, rfl, hts⟩ := level_of_reads h
    exact ⟨ts, rfl, .tighter hnext hts⟩
  | none =>
    cases level with
    | product =>
      rw [operand] at h
      obtain ⟨ts, rfl, hts⟩ := unary_of_reads h
      exact ⟨ts, rfl, .unary hts⟩
    | union =>
      rw [operand] at h
      obtain ⟨ts, rfl, hts⟩ := path_of_reads h
      exact ⟨ts, rfl, .path hts⟩
    | _ => cases hnext
termination_by (tokens.length, level.rank)

theorem unary_of_reads {tokens rest : List Token} {e : Expr}
    (h : Reads (unary tokens) e rest) : ∃ ts, tokens = ts ++ rest ∧ Unary ts e := by
  rcases reads_unary_iff.1 h with ⟨us, inner, rfl, rfl, hinner⟩ | ⟨-, hunion⟩
  · obtain ⟨ts, rfl, hts⟩ := unary_of_reads hinner
    exact ⟨.operator .minus :: ts, rfl, .negation hts⟩
  · obtain ⟨ts, rfl, hts⟩ := level_of_reads hunion
    exact ⟨ts, rfl, .union hts⟩
termination_by (tokens.length, 9)

theorem path_of_reads {tokens rest : List Token} {e : Expr}
    (h : Reads (path tokens) e rest) : ∃ ts, tokens = ts ++ rest ∧ Path ts e := by
  rcases reads_path_iff.1 h with
    ⟨first, middle, filters, middle', tail, hfirst, hfilters, rfl, htail⟩ | ⟨-, hlocation⟩
  · have := hfirst.length_lt
    have := hfilters.length_lt
    obtain ⟨ts, rfl, hts⟩ := primary_of_reads hfirst
    obtain ⟨us, rfl, hus⟩ := predicates_of_reads hfilters
    obtain ⟨vs, rfl, hvs⟩ := tail_of_reads htail
    refine ⟨ts ++ us ++ vs, by simp, ?_⟩
    split
    · rename_i hnil
      obtain ⟨rfl, rfl⟩ := hnil
      rw [hus.eq_nil, hvs.eq_nil, List.append_nil, List.append_nil]
      exact .primary hts
    · rename_i hne
      exact .filter hts hus hvs (not_and_or.1 hne)
  · obtain ⟨ts, rfl, hts⟩ := locationPath_of_reads hlocation
    exact ⟨ts, rfl, .location hts⟩
termination_by (tokens.length, 5)

theorem primary_of_reads {tokens rest : List Token} {e : Expr}
    (h : ReadsPrimary tokens e rest) : ∃ ts, tokens = ts ++ rest ∧ Primary ts e := by
  rcases readsPrimary_iff.1 h with ⟨text, rfl, rfl⟩ | ⟨value, rfl, rfl⟩ | ⟨us, rfl, hinner⟩ |
    ⟨name, us, args, rfl, hname, rfl, hargs⟩
  · exact ⟨[.literal text], rfl, .literal text⟩
  · exact ⟨[.number value], rfl, .number value⟩
  · obtain ⟨ts, rfl, hts⟩ := level_of_reads hinner
    exact ⟨.leftParen :: ts ++ [.rightParen], by simp, .parens hts⟩
  · obtain ⟨ts, rfl, hts⟩ := arguments_of_reads hargs
    exact ⟨.name name :: .leftParen :: ts ++ [.rightParen], by simp,
      .call (isNodeType_eq_false_iff.1 hname) hts⟩
termination_by (tokens.length, 4)

theorem arguments_of_reads {tokens rest : List Token} {es : List Expr}
    (h : Reads (arguments tokens) es rest) : ∃ ts, tokens = ts ++ rest ∧ Arguments ts es := by
  rcases reads_arguments_iff.1 h with ⟨us, -, rfl, rfl⟩ |
    ⟨-, first, middle, others, hfirst, rfl, hmore⟩
  · exact ⟨[], rfl, .nil⟩
  · have := hfirst.length_lt
    obtain ⟨ts, rfl, hts⟩ := level_of_reads hfirst
    obtain ⟨us, rfl, hus⟩ := moreArguments_of_reads hmore
    exact ⟨ts ++ us, by simp, .cons hts hus⟩
termination_by (tokens.length, 30)

theorem moreArguments_of_reads {tokens rest : List Token} {es : List Expr}
    (h : Reads (moreArguments tokens) es rest) :
    ∃ ts, tokens = ts ++ rest ∧ MoreArguments ts es := by
  rcases reads_moreArguments_iff.1 h with ⟨us, next, middle, others, rfl, hnext, rfl, hmore⟩ |
    ⟨-, rfl, rfl⟩
  · have := hnext.length_lt
    obtain ⟨ts, rfl, hts⟩ := level_of_reads hnext
    obtain ⟨us, rfl, hus⟩ := moreArguments_of_reads hmore
    exact ⟨.comma :: ts ++ us, by simp, .cons hts hus⟩
  · exact ⟨[], rfl, .nil⟩
termination_by (tokens.length, 0)

theorem locationPath_of_reads {tokens rest : List Token} {e : Expr}
    (h : Reads (locationPath tokens) e rest) : ∃ ts, tokens = ts ++ rest ∧ LocationPath ts e := by
  rcases reads_locationPath_iff.1 h with ⟨us, found, rfl, -, rfl, hfound⟩ | ⟨rfl, -, rfl⟩ |
    ⟨us, found, rfl, rfl, hfound⟩ | ⟨-, -, found, rfl, hfound⟩
  · obtain ⟨ts, rfl, hts⟩ := steps_of_reads hfound
    exact ⟨.slash :: ts, rfl, .absolute hts⟩
  · exact ⟨[.slash], rfl, .document⟩
  · obtain ⟨ts, rfl, hts⟩ := steps_of_reads hfound
    exact ⟨.doubleSlash :: ts, rfl, .descendants hts⟩
  · obtain ⟨ts, rfl, hts⟩ := steps_of_reads hfound
    exact ⟨ts, rfl, .relative hts⟩
termination_by (tokens.length, 4)

theorem steps_of_reads {tokens rest : List Token} {ss : List Step}
    (h : Reads (steps tokens) ss rest) : ∃ ts, tokens = ts ++ rest ∧ Steps ts ss := by
  obtain ⟨first, middle, others, hfirst, rfl, hothers⟩ := reads_steps_iff.1 h
  have := hfirst.length_lt
  obtain ⟨ts, rfl, hts⟩ := oneStep_of_reads hfirst
  obtain ⟨us, rfl, hus⟩ := tail_of_reads hothers
  refine ⟨ts ++ us, by simp, ?_⟩
  cases hus with
  | nil => simpa using .single hts
  | slash hus => exact .slash hts hus
  | doubleSlash hus => exact .doubleSlash hts hus
termination_by (tokens.length, 3)

theorem tail_of_reads {tokens rest : List Token} {ss : List Step}
    (h : Reads (trailingSteps tokens) ss rest) : ∃ ts, tokens = ts ++ rest ∧ Tail ts ss := by
  rcases reads_trailingSteps_iff.1 h with ⟨us, rfl, hfound⟩ | ⟨us, found, rfl, rfl, hfound⟩ |
    ⟨-, -, rfl, rfl⟩
  · obtain ⟨ts, rfl, hts⟩ := steps_of_reads hfound
    exact ⟨.slash :: ts, rfl, .slash hts⟩
  · obtain ⟨ts, rfl, hts⟩ := steps_of_reads hfound
    exact ⟨.doubleSlash :: ts, rfl, .doubleSlash hts⟩
  · exact ⟨[], rfl, .nil⟩
termination_by (tokens.length, 0)

theorem oneStep_of_reads {tokens rest : List Token} {s : Step}
    (h : Reads (step tokens) s rest) : ∃ ts, tokens = ts ++ rest ∧ OneStep ts s := by
  rcases reads_step_iff.1 h with ⟨rfl, rfl⟩ | ⟨rfl, rfl⟩ |
    ⟨-, -, direction, middle, test, middle', filters, haxis, htest, rfl, hfilters⟩
  · exact ⟨[.dot], rfl, .self⟩
  · exact ⟨[.doubleDot], rfl, .parent⟩
  · have := haxis.length_lt
    have := htest.length_lt
    obtain ⟨ts, rfl, hts⟩ := axisSpecifier_of_reads haxis
    obtain ⟨us, rfl, hus⟩ := test_of_reads htest
    obtain ⟨vs, rfl, hvs⟩ := predicates_of_reads hfilters
    exact ⟨ts ++ us ++ vs, by simp, .step hts hus hvs⟩
termination_by (tokens.length, 2)

theorem predicates_of_reads {tokens rest : List Token} {es : List Expr}
    (h : Reads (predicates tokens) es rest) : ∃ ts, tokens = ts ++ rest ∧ Predicates ts es := by
  rcases reads_predicates_iff.1 h with ⟨us, inner, middle, others, rfl, hinner, rfl, hothers⟩ |
    ⟨-, rfl, rfl⟩
  · have := hinner.length_lt
    obtain ⟨ts, rfl, hts⟩ := level_of_reads hinner
    obtain ⟨us, rfl, hus⟩ := predicates_of_reads hothers
    exact ⟨.leftBracket :: ts ++ .rightBracket :: us, by simp, .cons hts hus⟩
  · exact ⟨[], rfl, .nil⟩
termination_by (tokens.length, 0)

end

end XmlInspect.Query
