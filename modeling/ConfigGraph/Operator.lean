import ConfigGraph.Expr
import ConfigGraph.Value.Merge

/-!
# Operators on values

What the operators of the configuration language do to values that have been evaluated.  The logical
operators decide whether their right operand is evaluated at all, so they are not among the
operators that `BinaryOperator.apply` knows.
-/

namespace ConfigGraph

/-- Why an operator gives no value. -/
inductive OperatorFault where
  /-- The operands are not of types that the operator takes. -/
  | mismatch
  | divisionByZero
  | overflow (overflow : Number.Overflow)
  /-- The depth does not suffice. -/
  | unending

namespace BinaryOperator

/-- How an operator is written in messages.  The sign of the difference stands for the negation
there, so that the difference has none. -/
def symbol? : BinaryOperator → Option Text
  | add => some "+"
  | subtract => none
  | multiply => some "*"
  | divide => some "/"
  | modulo => some "%"
  | concat => some "++"
  | merge => some "&"
  | conjunction => some "&&"
  | disjunction => some "||"
  | equal => some "=="
  | notEqual => some "!="
  | less => some "<"
  | lessOrEqual => some "<="
  | greater => some ">"
  | greaterOrEqual => some ">="

/-- Whether two values are of the same type and equal. -/
def areEqual (depth : Nat) (left right : Value) : Except OperatorFault Bool :=
  if left.typeName = right.typeName then
    match Value.same depth left right with
    | some answer => .ok answer
    | none => .error .unending
  else .ok false

/-- The record of two records laid over each other. -/
def applyMerge (depth : Nat) (left right : Value) : Except OperatorFault Value :=
  match left.fields?, right.fields? with
  | some lower, some upper =>
      match Fields.merge depth lower upper with
      | some fields => .ok (.record fields)
      | none => .error .unending
  | _, _ => .error .mismatch

/-- Two texts or two arrays in a row. -/
def applyConcat (left right : Value) : Except OperatorFault Value :=
  match left, right with
  | .text left, .text right => .ok (.text (left ++ right))
  | left, right =>
      match left.items?, right.items? with
      | some lefts, some rights => .ok (.array (lefts ++ rights))
      | _, _ => .error .mismatch

/-- The order of two numbers or of two texts.  A number that is none has no order with others. -/
def order? (left right : Value) : Except OperatorFault (Option Ordering) :=
  match left.number?, right.number? with
  | some left, some right => .ok (Number.compare? left right)
  | _, _ =>
      match left, right with
      | .text left, .text right =>
          .ok (some (if left = right then .eq else if Text.before left right then .lt else .gt))
      | _, _ => .error .mismatch

/-- Whether the order of two values is one of some. -/
def applyOrder (accepted : List Ordering) (left right : Value) : Except OperatorFault Value :=
  (order? left right).map fun order => .bool (order.any accepted.contains)

/-- An operation on two numbers; the origin is that of an undefined result. -/
def applyArithmetic (origin : Origin) (operation : Number → Number → Except Number.Overflow Number)
    (left right : Value) : Except OperatorFault Value :=
  match left.number?, right.number? with
  | some left, some right =>
      match operation left right with
      | .ok number => .ok (.ofNumber origin number)
      | .error overflow => .error (.overflow overflow)
  | _, _ => .error .mismatch

/-- An operation on two numbers of which the second must not be zero. -/
def applyDivision (origin : Origin) (operation : Number → Number → Except Number.Overflow Number)
    (left right : Value) : Except OperatorFault Value :=
  match left.number?, right.number? with
  | some _, some divisor =>
      if divisor.isZero then .error .divisionByZero
      else applyArithmetic origin operation left right
  | _, _ => .error .mismatch

/-- The value of an operator on two values. -/
def apply (depth : Nat) (origin : Origin) (operator : BinaryOperator) (left right : Value) :
    Except OperatorFault Value :=
  match operator with
  | add => applyArithmetic origin Number.add left right
  | subtract => applyArithmetic origin Number.subtract left right
  | multiply => applyArithmetic origin Number.multiply left right
  | divide => applyDivision origin Number.divide left right
  | modulo => applyDivision origin Number.modulo left right
  | concat => applyConcat left right
  | merge => applyMerge depth left right
  | equal => (areEqual depth left right).map .bool
  | notEqual => (areEqual depth left right).map fun answer => .bool !answer
  | less => applyOrder [.lt] left right
  | lessOrEqual => applyOrder [.lt, .eq] left right
  | greater => applyOrder [.gt] left right
  | greaterOrEqual => applyOrder [.gt, .eq] left right
  | conjunction | disjunction => .error .mismatch

end BinaryOperator

namespace UnaryOperator

def symbol : UnaryOperator → Text
  | negate => "-"
  | negation => "!"

/-- The value of an operator on a value, if the value is of the type that the operator takes. -/
def value? (origin : Origin) (operator : UnaryOperator) (operand : Value) : Option Value :=
  match operator with
  | negate => operand.number?.map fun number => .ofNumber origin number.negate
  | negation =>
      match operand with
      | .bool value => some (.bool !value)
      | _ => none

end UnaryOperator

end ConfigGraph
