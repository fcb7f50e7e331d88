import ConfigGraph.Evaluation
import Mathlib.Data.List.Forall2

/-!
# Names and scopes

An expression looks up names in its scope that are free in it: those that stand in it and are bound
neither by a `let` nor as a parameter around them.  Two scopes agree on names if each of these has
related values in both, or none.  Binding related values keeps scopes in agreement, and on more
names.
-/

namespace ConfigGraph

/-! ## Free names -/

/-- A name stands somewhere in an expression where nothing inside of the expression binds it. -/
inductive Expr.Free (name : Text) : Expr → Prop where
  | identifier {span : Span} : Free name (.identifier span name)
  | field {span : Span} {fields : List (Span × Text × Expr)} {field : Span × Text × Expr} :
      field ∈ fields → Free name field.2.2 → Free name (.record span fields)
  | item {span : Span} {items : List Expr} {item : Expr} :
      item ∈ items → Free name item → Free name (.array span items)
  | letValue {span : Span} {bound : Text} {value body : Expr} :
      Free name value → Free name (.letIn span bound value body)
  | letBody {span : Span} {bound : Text} {value body : Expr} :
      name ≠ bound → Free name body → Free name (.letIn span bound value body)
  | functionBody {span : Span} {parameters : List Text} {body : Expr} :
      name ∉ parameters → Free name body → Free name (.function span parameters body)
  | condition {span : Span} {condition thenBranch elseBranch : Expr} :
      Free name condition → Free name (.conditional span condition thenBranch elseBranch)
  | thenBranch {span : Span} {condition thenBranch elseBranch : Expr} :
      Free name thenBranch → Free name (.conditional span condition thenBranch elseBranch)
  | elseBranch {span : Span} {condition thenBranch elseBranch : Expr} :
      Free name elseBranch → Free name (.conditional span condition thenBranch elseBranch)
  | left {span : Span} {operator : BinaryOperator} {left right : Expr} :
      Free name left → Free name (.binary span operator left right)
  | right {span : Span} {operator : BinaryOperator} {left right : Expr} :
      Free name right → Free name (.binary span operator left right)
  | operand {span : Span} {operator : UnaryOperator} {operand : Expr} :
      Free name operand → Free name (.unary span operator operand)
  | target {span : Span} {target : Expr} {field : Text} :
      Free name target → Free name (.access span target field)
  | callee {span : Span} {callee : Expr} {arguments : List Expr} :
      Free name callee → Free name (.call span callee arguments)
  | argument {span : Span} {callee : Expr} {arguments : List Expr} {argument : Expr} :
      argument ∈ arguments → Free name argument → Free name (.call span callee arguments)

namespace Scope

/-! ## Looking up -/

/-- The value that a name has in a scope. -/
def value? (scope : Scope) (name : Text) : Option Value :=
  (scope.find? fun binding => binding.1 = name).map (·.2)

theorem value?_cons (binding : Text × Value) (scope : Scope) (name : Text) :
    value? (binding :: scope) name =
      if binding.1 = name then some binding.2 else value? scope name := by
  unfold value?
  rw [List.find?_cons]
  by_cases same : binding.1 = name
  · simp [same]
  · simp [same]

theorem mem_of_value? {scope : Scope} {name : Text} {value : Value}
    (found : value? scope name = some value) : ∃ binding ∈ scope, binding.2 = value := by
  obtain ⟨binding, isFound, rfl⟩ := Option.map_eq_some_iff.mp found
  exact ⟨binding, List.mem_of_find?_eq_some isFound, rfl⟩

/-! ## Agreement -/

/-- Each of some names has related values in two scopes, or none in both. -/
def Agree (related : Value → Value → Prop) (names : Text → Prop) (scope other : Scope) : Prop :=
  ∀ name, names name → Option.Rel related (value? scope name) (value? other name)

variable {related : Value → Value → Prop} {names fewer : Text → Prop} {scope other : Scope}

theorem Agree.mono (agree : Agree related names scope other)
    (subset : ∀ name, fewer name → names name) : Agree related fewer scope other :=
  fun name isName => agree name (subset name isName)

theorem agree_self (values : ∀ binding ∈ scope, related binding.2 binding.2)
    (names : Text → Prop) : Agree related names scope scope := by
  intro name _
  cases found : value? scope name with
  | none => exact .none
  | some value =>
      obtain ⟨binding, isBinding, rfl⟩ := mem_of_value? found
      exact .some (values binding isBinding)

/-- A name that is bound in both scopes need not have had related values before. -/
theorem Agree.cons {bound : Text} {value otherValue : Value} (isRelated : related value otherValue)
    (agree : Agree related (fun name => name ≠ bound ∧ names name) scope other) :
    Agree related names ((bound, value) :: scope) ((bound, otherValue) :: other) := by
  intro name isName
  rw [value?_cons, value?_cons]
  split
  · exact .some isRelated
  case isFalse differs => exact agree name ⟨fun same => differs same.symm, isName⟩

/-- A name that is not looked up may be bound in one of the scopes. -/
theorem Agree.cons_of_not {bound : Text} (unused : ¬names bound) (value : Value)
    (agree : Agree related names scope other) :
    Agree related names ((bound, value) :: scope) other := by
  intro name isName
  rw [value?_cons, if_neg]
  · exact agree name isName
  · rintro rfl
    exact unused isName

theorem Agree.append {front otherFront : Scope}
    (areRelated : List.Forall₂ (fun binding twin => binding.1 = twin.1 ∧ related binding.2 twin.2)
      front otherFront)
    (agree : Agree related (fun name => name ∉ front.map Prod.fst ∧ names name) scope other) :
    Agree related names (front ++ scope) (otherFront ++ other) := by
  induction areRelated generalizing names with
  | nil => exact agree.mono fun name isName => ⟨List.not_mem_nil, isName⟩
  | @cons binding twin front otherFront isRelated _ induction =>
      obtain ⟨bound, value⟩ := binding
      obtain ⟨otherBound, otherValue⟩ := twin
      obtain ⟨rfl, isRelated⟩ := isRelated
      refine .cons isRelated (induction (agree.mono ?_))
      rintro name ⟨notInFront, differs, isName⟩
      rw [List.map_cons]
      exact ⟨List.not_mem_cons_of_ne_of_not_mem differs notInFront, isName⟩

theorem forall₂_zip {parameters : List Text} {arguments others : List Value}
    (areRelated : List.Forall₂ related arguments others) :
    List.Forall₂ (fun binding twin => binding.1 = twin.1 ∧ related binding.2 twin.2)
      (parameters.zip arguments) (parameters.zip others) := by
  induction areRelated generalizing parameters with
  | nil =>
      rw [List.zip_nil_right]
      exact .nil
  | cons isRelated _ induction =>
      cases parameters with
      | nil => exact .nil
      | cons parameter parameters => exact .cons ⟨rfl, isRelated⟩ induction

/-- The scopes of the body of a function agree on what the function sees and on its parameters. -/
theorem Agree.bind {parameters : List Text} {arguments others : List Value}
    (sameLength : arguments.length = parameters.length)
    (areRelated : List.Forall₂ related arguments others)
    (agree : Agree related (fun name => name ∉ parameters ∧ names name) scope other) :
    Agree related names (Evaluation.bind parameters arguments scope)
      (Evaluation.bind parameters others other) := by
  refine .append (List.rel_reverse (forall₂_zip areRelated)) (agree.mono ?_)
  rintro name ⟨notBound, isName⟩
  rw [List.map_reverse, List.mem_reverse,
    List.map_fst_zip (Nat.le_of_eq sameLength.symm)] at notBound
  exact ⟨notBound, isName⟩

end Scope

end ConfigGraph
