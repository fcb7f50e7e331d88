import ConfigGraph.Position

/-!
# Walks over a text

A cursor that only goes forwards has at each offset the position of that offset, so the ranges that
it gives are those of single spans.  One cursor finds the ranges of all spans that come one behind
the other.
-/

namespace ConfigGraph

/-- The range of a span that lies inside of a text. -/
def Span.rangeIn (text : Text) (span : Span) : Range :=
  ⟨positionAt text span.start, positionAt text span.stop⟩

/-- The part of a text that a span covers. -/
def Span.textIn (text : Text) (span : Span) : Text :=
  (text.drop span.start).take (span.stop - span.start)

/-- A span that lies inside of a text. -/
structure Span.Inside (text : Text) (span : Span) : Prop where
  start_le : span.start ≤ span.stop
  stop_le : span.stop ≤ text.length

namespace Cursor

/-- What a cursor finds for spans, one after another. -/
def ranges (cursor : Cursor) : List Span → List (Except Misstep Range)
  | [] => []
  | span :: spans =>
      let (range, next) := cursor.range? (some span)
      range :: next.ranges spans

/-- The cursor at an offset of a text. -/
def reaching (text : Text) (offset : Nat) : Cursor := ⟨text, offset, positionAt text offset⟩

theorem ofText_eq_reaching (text : Text) : ofText text = .reaching text 0 := rfl

/-- The position behind a text and another is that behind the second, from behind the first. -/
theorem past_append (position : Position) (before behind : Text) :
    position.past (before ++ behind) = (position.past before).past behind :=
  List.foldl_append

theorem positionAt_past {text : Text} {first last : Nat} (ordered : first ≤ last) :
    (positionAt text first).past ((text.drop first).take (last - first)) =
      positionAt text last := by
  have split : text.take last = text.take first ++ (text.drop first).take (last - first) := by
    rw [← List.take_add, Nat.add_sub_cancel' ordered]
  simp only [positionAt, Int.toNat_natCast, split, past_append]

theorem advance_reaching {text : Text} {first last : Nat} (ordered : first ≤ last)
    (inside : last ≤ text.length) :
    (Cursor.reaching text first).advance last = .ok (Cursor.reaching text last) := by
  have notBehind : ¬(last : Int) < (first : Int) := by omega
  have notBeyond : ¬(text.length : Int) < (last : Int) := by omega
  simp only [advance, Cursor.reaching, if_neg notBehind, Int.ofNat_eq_natCast, if_neg notBeyond,
    Int.toNat_natCast, positionAt_past ordered]

theorem range?_reaching {text : Text} {offset : Nat} {span : Span} (ordered : offset ≤ span.start)
    (inside : span.Inside text) :
    (Cursor.reaching text offset).range? (some span) =
      (.ok (span.rangeIn text), Cursor.reaching text span.stop) := by
  have first := advance_reaching ordered (Nat.le_trans inside.start_le inside.stop_le)
  have second := advance_reaching inside.start_le inside.stop_le
  simp only [range?, between, first, second]
  rfl

/-- A cursor before spans that come one behind the other finds all of them. -/
theorem ranges_reaching {text : Text} {offset : Nat} {spans : List Span}
    (inside : ∀ span ∈ spans, span.Inside text)
    (ordered : spans.Pairwise fun before behind => before.stop ≤ behind.start)
    (ahead : ∀ span ∈ spans, offset ≤ span.start) :
    (Cursor.reaching text offset).ranges spans =
      spans.map fun span => .ok (span.rangeIn text) := by
  induction spans generalizing offset with
  | nil => rfl
  | cons span spans induction =>
      obtain ⟨spanInside, othersInside⟩ := List.forall_mem_cons.mp inside
      obtain ⟨behindSpan, othersOrdered⟩ := List.pairwise_cons.mp ordered
      rw [ranges, range?_reaching (ahead span List.mem_cons_self) spanInside]
      dsimp only
      rw [induction othersInside othersOrdered behindSpan, List.map_cons]

end Cursor

theorem rangeOfSpan?_of_inside {text : Text} {span : Span} (inside : span.Inside text) :
    rangeOfSpan? text (some span) = .ok (span.rangeIn text) := by
  rw [rangeOfSpan?, Cursor.ofText_eq_reaching, Cursor.range?_reaching (Nat.zero_le _) inside]

end ConfigGraph
