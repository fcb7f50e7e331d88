import ConfigGraph.Number.Basic
import ConfigGraph.Position

/-!
# Expressions of the configuration language

The syntax tree of a document, with the span of every node.  `Expr.nodes` lists the nodes from the
top down and in source order, and `Expr.imports` picks the imports from them.
-/

namespace ConfigGraph

/-- Operators between two operands. -/
inductive BinaryOperator where
  | add | subtract | multiply | divide | modulo | concat | merge
  | conjunction | disjunction
  | equal | notEqual | less | lessOrEqual | greater | greaterOrEqual
  deriving DecidableEq

def BinaryOperator.name : BinaryOperator → Text
  | add => "add"
  | subtract => "subtract"
  | multiply => "multiply"
  | divide => "divide"
  | modulo => "modulo"
  | concat => "concat"
  | merge => "merge"
  | conjunction => "and"
  | disjunction => "or"
  | equal => "eq"
  | notEqual => "ne"
  | less => "lt"
  | lessOrEqual => "le"
  | greater => "gt"
  | greaterOrEqual => "ge"

/-- Operators before an operand. -/
inductive UnaryOperator where
  | negate | negation
  deriving DecidableEq

def UnaryOperator.name : UnaryOperator → Text
  | negate => "negate"
  | negation => "not"

/-- An expression and where it stands. -/
inductive Expr where
  | number (span : Span) (value : Number)
  | string (span : Span) (value : Text)
  | boolean (span : Span) (value : Bool)
  | null (span : Span)
  | identifier (span : Span) (name : Text)
  /-- A record; a field has the span from its name to its value. -/
  | record (span : Span) (fields : List (Span × Text × Expr))
  | array (span : Span) (items : List Expr)
  | importOf (span : Span) (path : Text)
  | letIn (span : Span) (name : Text) (value body : Expr)
  | function (span : Span) (parameters : List Text) (body : Expr)
  | conditional (span : Span) (condition thenBranch elseBranch : Expr)
  | binary (span : Span) (operator : BinaryOperator) (left right : Expr)
  | unary (span : Span) (operator : UnaryOperator) (operand : Expr)
  | access (span : Span) (target : Expr) (field : Text)
  | call (span : Span) (callee : Expr) (arguments : List Expr)
  deriving Inhabited

namespace Expr

def span : Expr → Span
  | number span _ | string span _ | boolean span _ | null span | identifier span _
  | record span _ | array span _ | importOf span _ | letIn span _ _ _ | function span _ _
  | conditional span _ _ _ | binary span _ _ _ | unary span _ _ | access span _ _
  | call span _ _ => span

/-- A place in a tree: an expression, or a field of a record. -/
inductive Node where
  | expr (expr : Expr)
  | field (span : Span) (name : Text) (value : Expr)

mutual

/-- All nodes of an expression, a node before its parts and the parts in source order. -/
def nodes : Expr → List Node
  | expr@(number ..) | expr@(string ..) | expr@(boolean ..) | expr@(null ..)
  | expr@(identifier ..) | expr@(importOf ..) => [.expr expr]
  | expr@(record _ fields) => .expr expr :: fieldNodes fields
  | expr@(array _ items) => .expr expr :: itemNodes items
  | expr@(letIn _ _ value body) => .expr expr :: (nodes value ++ nodes body)
  | expr@(function _ _ body) => .expr expr :: nodes body
  | expr@(conditional _ condition thenBranch elseBranch) =>
      .expr expr :: (nodes condition ++ nodes thenBranch ++ nodes elseBranch)
  | expr@(binary _ _ left right) => .expr expr :: (nodes left ++ nodes right)
  | expr@(unary _ _ operand) => .expr expr :: nodes operand
  | expr@(access _ target _) => .expr expr :: nodes target
  | expr@(call _ callee arguments) => .expr expr :: (nodes callee ++ itemNodes arguments)

def itemNodes : List Expr → List Node
  | [] => []
  | item :: items => nodes item ++ itemNodes items

def fieldNodes : List (Span × Text × Expr) → List Node
  | [] => []
  | (span, name, value) :: fields => .field span name value :: (nodes value ++ fieldNodes fields)

end

/-- An import as it stands in a document: where, and the path as written. -/
structure ImportSite where
  span : Span
  path : Text
  deriving DecidableEq

/-- The import at a node, if it is one. -/
def Node.import? : Node → Option ImportSite
  | .expr (importOf span path) => some ⟨span, path⟩
  | _ => none

def imports (expr : Expr) : List ImportSite := expr.nodes.filterMap Node.import?

end Expr

end ConfigGraph
