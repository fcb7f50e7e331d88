import ConfigGraph.Value.Basic

/-!
# Equality of values

Numbers and booleans are compared as quantities, texts and bytes by their elements, points in time
as instants, containers member by member, records without regard to the order of their fields, and
functions by their code and the bindings that they see.  Inside a container a value also equals
itself where that is not clear from its parts: a float that is no number, a function, a tied
container.

Tied containers can keep a comparison busy for ever, so comparing takes a depth and has no answer
where that does not suffice.  Keys of records are never tied, and `sameKey` always has an answer.
-/

namespace ConfigGraph

namespace Value

/-- The quantity that a value stands for in a comparison; true is one and false is zero. -/
def quantity? : Value → Option Number
  | bool value => some (.int (if value then 1 else 0))
  | value => value.number?

/-- Whether two values are one and the same thing that has an identity of its own. -/
def identical : Value → Value → Bool
  | nan left, nan right => left == right
  | function left .., function right .. => left == right
  | knot left _ leftIndex, knot right _ rightIndex => left == right && leftIndex == rightIndex
  | _, _ => false

/-- Whether two values that are neither containers nor functions are equal. -/
def sameScalar : Value → Value → Bool
  | null, null => true
  | text left, text right => left == right
  | bytes left, bytes right => left == right
  | date left, date right => left == right
  | dateTime left, dateTime right => left.same right
  | left, right =>
      match left.quantity?, right.quantity? with
      | some left, some right => left.same right
      | _, _ => false

mutual

/-- Whether two values are the same key of a record.  A key is no container but a tuple of keys. -/
def sameKey : Value → Value → Bool
  | tuple lefts, tuple rights => sameKeys lefts rights
  | left, right => identical left right || sameScalar left right

/-- Whether two lists of keys agree. -/
def sameKeys : List Value → List Value → Bool
  | [], [] => true
  | left :: lefts, right :: rights => sameKey left right && sameKeys lefts rights
  | _, _ => false

end

/-- All answers are yes; an answer of no comes before whatever is unknown behind it. -/
def allTrue : List (Option Bool) → Option Bool
  | [] => some true
  | none :: _ => none
  | some false :: _ => some false
  | some true :: rest => allTrue rest

/-- Whether two lists agree member by member. -/
def sameLists {α : Type} (same : α → α → Option Bool) (left right : List α) : Option Bool :=
  if left.length = right.length then allTrue (List.zipWith same left right) else some false

/-- Looks up a key by a comparison of keys. -/
def lookupBy {κ α : Type} (same : κ → κ → Bool) (key : κ) (fields : List (κ × α)) : Option α :=
  (fields.find? fun field => same key field.1).map (·.2)

/-- Whether two records have the same keys with the same values. -/
def sameFields {κ α : Type} (sameKey : κ → κ → Bool) (same : α → α → Option Bool)
    (left right : List (κ × α)) : Option Bool :=
  if left.length = right.length then
    allTrue (left.map fun field =>
      match lookupBy sameKey field.1 right with
      | none => some false
      | some other => same field.2 other)
  else some false

/-- The bindings of a scope that no later one hides. -/
def visible : Scope → Scope
  | [] => []
  | binding :: rest => binding :: (visible rest).filter fun other => other.1 != binding.1

/-- Whether two values are equal, if the depth suffices to tell. -/
def same : Nat → Value → Value → Option Bool
  | 0, _, _ => none
  | depth + 1, left, right =>
      let member (left right : Value) : Option Bool :=
        if identical left right then some true else same depth left right
      match left.layer?, right.layer? with
      | some (.array lefts), some (.array rights) => sameLists member lefts rights
      | some (.tuple lefts), some (.tuple rights) => sameLists member lefts rights
      | some (.set lefts), some (.set rights) =>
          some (lefts.length == rights.length &&
            lefts.all fun item => rights.any fun other => sameKey item other)
      | some (.record lefts), some (.record rights) => sameFields sameKey member lefts rights
      | none, none =>
          match left, right with
          | function leftOrigin leftParameters leftBody leftScope leftSource,
              function rightOrigin rightParameters rightBody rightScope rightSource =>
              if leftOrigin = rightOrigin then some true
              else if leftSource.path = rightSource.path ∧ leftParameters = rightParameters ∧
                  leftBody.span = rightBody.span then
                sameFields (· == ·) member (visible leftScope) (visible rightScope)
              else some false
          | _, _ => some (sameScalar left right)
      | _, _ => some false

end Value

namespace Fields

def get? (fields : Fields) (key : Value) : Option Value := Value.lookupBy Value.sameKey key fields

/-- Gives a key a value: in its old place if the key is there, at the end otherwise. -/
def put {α : Type} (key : Value) (value : α) : List (Value × α) → List (Value × α)
  | [] => [(key, value)]
  | field :: fields =>
      if Value.sameKey key field.1 then (field.1, value) :: fields else field :: put key value fields

end Fields

end ConfigGraph
