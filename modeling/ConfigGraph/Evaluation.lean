import ConfigGraph.Operator
import ConfigGraph.Store

/-!
# Evaluation

Evaluates the documents of a store.  A session remembers the values of documents, so that each is
evaluated once, and the documents that are being evaluated, so that one that needs itself is an
error.  A failure leaves no document among those being evaluated.

Functions can call themselves by way of their arguments, so evaluation takes a depth, and fails as
unending where that does not suffice.  Every value with an identity of its own gets the place at
which it was made as its origin: the document whose evaluation made it, and the way there through
the parts of expressions.
-/

namespace ConfigGraph

/-- What is remembered between evaluations. -/
structure Session where
  /-- The values of documents, the latest first. -/
  values : List (Text × Value)
  /-- The documents that are being evaluated, the innermost first. -/
  active : List Text

namespace Session

def start : Session := ⟨[], []⟩

def value? (session : Session) (path : Text) : Option Value :=
  (session.values.find? fun entry => entry.1 = path).map (·.2)

def enter (session : Session) (path : Text) : Session :=
  { session with active := path :: session.active }

def leave (session : Session) (path : Text) : Session :=
  { session with active := session.active.filter fun other => other != path }

def remember (session : Session) (path : Text) (value : Value) : Session :=
  { session with values := (path, value) :: session.values }

end Session

/-- A part of an evaluation.  A failure keeps the session in which it happened. -/
abbrev Evaluation := ExceptT Failure (StateM Session)

/-- A place in an evaluation: the document being evaluated, and the way from it, the latest step
first. -/
structure Site where
  document : Text
  way : List Nat

namespace Site

def step (site : Site) (part : Nat) : Site := { site with way := part :: site.way }

def origin (site : Site) : Origin := .made site.document site.way

end Site

namespace Evaluation

/-- The result of a part of an evaluation that starts in a session, and the session behind it. -/
def perform {α : Type} (part : Evaluation α) (session : Session) : Except Failure α × Session :=
  part session

/-- Fails because the depth does not suffice. -/
def unending {α : Type} : Evaluation α := throw (.fault .unending)

def liftInternal {α : Type} : Except InternalFault α → Evaluation α
  | .ok value => return value
  | .error fault => throw (.fault (.internal fault))

/-- Fails at a span of a document. -/
def fail {α : Type} (source : Source) (span : Span) (code : ErrorCode) (details : Details) :
    Evaluation α :=
  match rangeOfSpan? source.text (some span) with
  | .ok range => throw (.error ⟨.evaluation, code, some source.path, some range, details⟩)
  | .error misstep => throw (.fault (.misstep misstep))

/-- Fails at a span of a document with details that are texts. -/
def failWith {α : Type} (source : Source) (span : Span) (code : ErrorCode)
    (details : List (Text × Text)) : Evaluation α :=
  fail source span code (details.map fun detail => (detail.1, .text detail.2))

/-- The error of a document that needs itself to be evaluated. -/
def recursionError (path : Text) : LoadError :=
  .ofTexts .evaluation .infiniteRecursion [("document", path)] (some path) none

/-- The evaluation of a document as a whole: while it lasts the document is being evaluated, and its
value is remembered. -/
def within (path : Text) (body : Evaluation Value) : Evaluation Value := fun session =>
  match body.perform (session.enter path) with
  | (.ok value, after) => (.ok value, (after.leave path).remember path value)
  | (.error failure, after) => (.error failure, after.leave path)

/-- Fails as an operator on two values fails. -/
def failOperator {α : Type} (source : Source) (span : Span) (operator : BinaryOperator)
    (left right : Value) : OperatorFault → Evaluation α
  | .unending => unending
  | .overflow overflow => throw (.fault (.overflow overflow))
  | .divisionByZero => failWith source span .divisionByZero []
  | .mismatch =>
      match operator.symbol? with
      | none => throw (.fault (.operatorWithoutSymbol operator))
      | some symbol =>
          failWith source span .operatorTypeMismatch
            [("op", symbol), ("left_type", left.typeName), ("right_type", right.typeName)]

/-- The truth value that an operand of a logical operator must be. -/
def logicalOperand (source : Source) (span : Span) (operator : BinaryOperator) :
    Value → Evaluation Bool
  | .bool value => return value
  | other =>
      failWith source span .logicalOperandNotBoolean
        [("op", operator.symbol?.getD []), ("provided", other.typeName)]

def lookup (source : Source) (span : Span) (scope : Scope) (name : Text) : Evaluation Value :=
  match scope.find? fun binding => binding.1 = name with
  | some (_, value) => return value
  | none => failWith source span .unboundIdentifier [("name", name)]

def access (source : Source) (span : Span) (target : Value) (field : Text) : Evaluation Value :=
  match target.fields? with
  | none =>
      failWith source span .accessOnNonRecord [("name", field), ("provided", target.typeName)]
  | some fields =>
      match Fields.get? fields (.text field) with
      | some value => return value
      | none => failWith source span .missingField [("name", field)]

/-- The scope of the body of a function.  Of parameters with the same name the last one counts. -/
def bind (parameters : List Text) (arguments : List Value) (scope : Scope) : Scope :=
  (parameters.zip arguments).reverse ++ scope

/-- The value of the content of a document: data as they are, and an expression by the given
evaluation. -/
def ofContent (evaluate : Expr → Evaluation Value) : Content → Evaluation Value
  | .data value => return value
  | .expr expr => evaluate expr

/-- Evaluates a document by the given evaluation of expressions, unless its value is remembered. -/
def ofDocument (store : Store) (evaluate : Document → Expr → Evaluation Value) (path : Text) :
    Evaluation Value := do
  let session ← get
  match session.value? path with
  | some value => return value
  | none =>
      match store.find? path with
      | none => throw (.fault (.internal (.unknownDocument path)))
      | some document =>
          if session.active.contains path then throw (.error (recursionError path))
          else within path (ofContent (evaluate document) document.content)

/-- Evaluates an expression at a place, in a document and in a scope.  The first argument bounds the
depth. -/
def ofExpr : Nat → Store → Site → Source → Scope → Expr → Evaluation Value
  | 0, _, _, _, _, _ => unending
  | depth + 1, store, site, source, scope, expr =>
      let part (number : Nat) (expr : Expr) : Evaluation Value :=
        ofExpr depth store (site.step number) source scope expr
      match expr with
      | .number _ value => return .ofNumber site.origin value
      | .string _ value => return .text value
      | .boolean _ value => return .bool value
      | .null _ => return .null
      | .identifier span name => lookup source span scope name
      | .record _ fields => do
          let fields ← fields.zipIdx.foldlM (fun known ((span, name, value), number) => do
            if (Fields.get? known (.text name)).isSome then
              failWith source span .duplicateField [("name", name)]
            return known ++ [(.text name, ← part number value)]) []
          return .record fields
      | .array _ items => do
          let items ← items.zipIdx.mapM fun (item, number) => part number item
          return .array items
      | .importOf span _ => do
          let target ← liftInternal (store.target ⟨source.path, some span⟩)
          ofDocument store (fun document expr =>
            ofExpr depth store ⟨document.path, []⟩ document.source [] expr) target
      | .letIn _ name value body => do
          let value ← part 0 value
          ofExpr depth store (site.step 1) source ((name, value) :: scope) body
      | .function _ parameters body =>
          return .function site.origin parameters body scope source
      | .conditional _ condition thenBranch elseBranch => do
          match ← part 0 condition with
          | .bool true => part 1 thenBranch
          | .bool false => part 2 elseBranch
          | other =>
              failWith source condition.span .conditionNotBoolean [("provided", other.typeName)]
      | .binary span operator left right =>
          match operator with
          | .conjunction => do
              if ← logicalOperand source left.span operator (← part 0 left) then
                return .bool (← logicalOperand source right.span operator (← part 1 right))
              else return .bool false
          | .disjunction => do
              if ← logicalOperand source left.span operator (← part 0 left) then return .bool true
              else return .bool (← logicalOperand source right.span operator (← part 1 right))
          | operator => do
              let left ← part 0 left
              let right ← part 1 right
              match operator.apply depth site.origin left right with
              | .ok value => return value
              | .error fault => failOperator source span operator left right fault
      | .unary span operator operand => do
          let operand ← part 0 operand
          match operator.value? site.origin operand with
          | some value => return value
          | none =>
              failWith source span .unaryTypeMismatch
                [("op", operator.symbol), ("provided", operand.typeName)]
      | .access span target field => do access source span (← part 0 target) field
      | .call span callee arguments => do
          match ← part 0 callee with
          | .function _ parameters body scope home =>
              if arguments.length ≠ parameters.length then
                fail source span .argumentCountMismatch
                  [("expected", .int parameters.length), ("provided", .int arguments.length)]
              else
                let values ← arguments.zipIdx.mapM fun (argument, number) =>
                  part (number + 2) argument
                ofExpr depth store (site.step 1) home (bind parameters values scope) body
          | other => failWith source span .notAFunction [("provided", other.typeName)]

/-- Evaluates a document of a store.  The first argument bounds the depth. -/
def ofPath (depth : Nat) (store : Store) (path : Text) : Evaluation Value :=
  ofDocument store (fun document expr =>
    ofExpr depth store ⟨document.path, []⟩ document.source [] expr) path

end Evaluation

end ConfigGraph
