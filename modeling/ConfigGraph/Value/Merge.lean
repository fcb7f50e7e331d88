import ConfigGraph.Value.Equality

/-!
# Merging records

The right record is laid over the left one: its fields win, except that two records under the same
key are merged in turn.  Fields keep the place of the left record, new ones follow in the order of
the right one.

Two tied records can hold each other's counterpart for ever, so merging takes a depth and has no
result where that does not suffice.
-/

namespace ConfigGraph.Fields

/-- Lays one field over a record; the function merges two records that are one level down. -/
def overlay (merge : Fields → Fields → Option Fields) (left : Fields) (field : Value × Value) :
    Option Fields :=
  match (Fields.get? left field.1).bind Value.fields?, field.2.fields? with
  | some lower, some upper =>
      (merge lower upper).map fun merged => Fields.put field.1 (.record merged) left
  | _, _ => some (Fields.put field.1 field.2 left)

/-- The right record laid over the left one, if the depth suffices. -/
def merge : Nat → Fields → Fields → Option Fields
  | 0, _, _ => none
  | depth + 1, left, right => right.foldlM (overlay (merge depth)) left

end ConfigGraph.Fields
