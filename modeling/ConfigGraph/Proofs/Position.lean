import ConfigGraph.Proofs.Cursor
import Mathlib.Data.List.DropRight
import Mathlib.Data.Prod.Lex

/-!
# What positions say

A position counts the newlines before an offset and the UTF-16 code units behind the last of them,
without carriage returns.  A cursor gives this position wherever it is sent, whatever it was asked
before; an offset that it cannot go to leaves it where it is.
-/

namespace ConfigGraph

/-- The UTF-16 code units of a code point; a surrogate on its own is one. -/
def CodePoint.units (code : CodePoint) : List Nat :=
  if code.value < 0x10000 then [code.value]
  else [0xd800 + (code.value - 0x10000) / 0x400, 0xdc00 + (code.value - 0x10000) % 0x400]

namespace Text

def units (text : Text) : List Nat := text.flatMap CodePoint.units

/-- The part of a text behind its last newline. -/
def lastLine (text : Text) : Text := text.rtakeWhile fun code => code != '\n'

def withoutReturns (text : Text) : Text := text.filter fun code => code != '\r'

theorem lastLine_append (text : Text) (code : CodePoint) :
    lastLine (text ++ [code]) = if code = '\n' then [] else lastLine text ++ [code] := by
  unfold lastLine
  rw [List.rtakeWhile_concat]
  by_cases isNewline : code = '\n' <;> simp [isNewline]

theorem withoutReturns_append (text : Text) (code : CodePoint) :
    withoutReturns (text ++ [code]) =
      if code = '\r' then withoutReturns text else withoutReturns text ++ [code] := by
  by_cases isReturn : code = '\r' <;> simp [withoutReturns, isReturn]

theorem units_append (text : Text) (code : CodePoint) :
    units (text ++ [code]) = units text ++ code.units := by
  simp [units]

end Text

namespace Position

/-- The position behind a text. -/
def behind (text : Text) : Position :=
  ⟨text.count (CodePoint.ofChar '\n'),
    (Text.units (Text.withoutReturns (Text.lastLine text))).length⟩

theorem width_eq_length_units (code : CodePoint) : width code = code.units.length := by
  unfold width CodePoint.units
  by_cases isBasic : code.value < 0x10000
  · simp [isBasic, Nat.le_of_lt_succ isBasic]
  · have beyond : 0xffff < code.value := by omega
    simp [isBasic, beyond]

theorem behind_append (text : Text) (code : CodePoint) :
    behind (text ++ [code]) = (behind text).step code := by
  unfold behind step
  rw [List.count_append, List.count_singleton, Text.lastLine_append]
  by_cases isReturn : code = '\r'
  · subst code
    have notNewline : CodePoint.ofChar '\r' ≠ CodePoint.ofChar '\n' := by decide
    simp [notNewline, Text.withoutReturns_append]
  · by_cases isNewline : code = '\n'
    · subst code
      simp [isReturn, Text.withoutReturns, Text.units]
    · simp [isReturn, isNewline, Text.withoutReturns_append, Text.units_append,
        width_eq_length_units]

theorem past_origin (text : Text) : origin.past text = behind text := by
  induction text using List.reverseRecOn with
  | nil => rfl
  | append_singleton text code induction =>
      rw [Cursor.past_append, induction, behind_append]
      rfl

theorem positionAt_eq_behind (text : Text) (offset : Nat) :
    positionAt text offset = behind (text.take offset) := past_origin _

end Position

/-- The range of a span is from the position behind the text in front of it to that behind the text
up to its end. -/
theorem Span.rangeIn_eq_behind (span : Span) (text : Text) :
    span.rangeIn text = ⟨.behind (text.take span.start), .behind (text.take span.stop)⟩ := by
  rw [rangeIn, Position.positionAt_eq_behind, Position.positionAt_eq_behind]

namespace Position

/-! ## The order of positions -/

/-- Positions are ordered by their lines first. -/
def key (position : Position) : ℕ ×ₗ ℕ := toLex (position.line, position.character)

theorem step_return (position : Position) : position.step '\r' = position := rfl

theorem lt_step {code : CodePoint} (position : Position) (notReturn : code ≠ '\r') :
    position.key < (position.step code).key := by
  unfold key step
  rw [if_neg notReturn, Prod.Lex.toLex_lt_toLex]
  by_cases isNewline : code = '\n'
  · simp [isNewline]
  · have positive : 0 < width code := by
      unfold width
      split <;> decide
    simp [isNewline, positive]

theorem le_past (position : Position) (text : Text) :
    position.key ≤ (position.past text).key := by
  induction text generalizing position with
  | nil => exact le_refl _
  | cons code text induction =>
      refine le_trans ?_ (induction (position.step code))
      by_cases isReturn : code = '\r'
      · rw [isReturn, step_return]
      · exact le_of_lt (lt_step position isReturn)

/-- Nothing but carriage returns leaves a position where it is. -/
theorem eq_past_iff (position : Position) (text : Text) :
    position = position.past text ↔ ∀ code ∈ text, code = '\r' := by
  induction text generalizing position with
  | nil => simp [past]
  | cons code text induction =>
      by_cases isReturn : code = '\r'
      · subst code
        have pastReturn : position.past (CodePoint.ofChar '\r' :: text) = position.past text := rfl
        rw [pastReturn, induction]
        simp
      · have farther : position.key < (position.past (code :: text)).key :=
          lt_of_lt_of_le (lt_step position isReturn) (le_past (position.step code) text)
        constructor
        · intro same
          rw [← same] at farther
          exact absurd farther (lt_irrefl _)
        · intro allReturns
          exact absurd (allReturns code List.mem_cons_self) isReturn

theorem behind_past {text : Text} {first last : Nat} (ordered : first ≤ last) :
    (behind (text.take first)).past ((text.drop first).take (last - first)) =
      behind (text.take last) := by
  rw [← past_origin, ← past_origin]
  exact Cursor.positionAt_past ordered

end Position

/-! ## Calls of a cursor -/

namespace Cursor

open Position (behind)

/-- What a cursor answers when it is sent to an offset, and the cursor after that. -/
def call (cursor : Cursor) (offset : Int) : Except Misstep Position × Cursor :=
  match cursor.advance offset with
  | .ok next => (.ok next.position, next)
  | .error misstep => (.error misstep, cursor)

/-- The answers to calls one after another, and the cursor after them. -/
def calls (cursor : Cursor) : List Int → List (Except Misstep Position) × Cursor
  | [] => ([], cursor)
  | offset :: offsets =>
      let (answer, next) := cursor.call offset
      let (answers, last) := next.calls offsets
      (answer :: answers, last)

theorem reaching_eq (text : Text) (offset : Nat) :
    reaching text offset = ⟨text, offset, behind (text.take offset)⟩ := by
  rw [← Position.past_origin]
  rfl

theorem call_of_ok {cursor next : Cursor} {offset : Int} (goes : cursor.advance offset = .ok next) :
    cursor.call offset = (.ok next.position, next) := by
  rw [call, goes]

theorem call_of_error {cursor : Cursor} {offset : Int} {misstep : Misstep}
    (refused : cursor.advance offset = .error misstep) :
    cursor.call offset = (.error misstep, cursor) := by
  rw [call, refused]

theorem call_behind {cursor : Cursor} {offset : Int} (isBehind : offset < cursor.offset) :
    cursor.call offset = (.error (.behind offset cursor.offset), cursor) := by
  apply call_of_error
  rw [advance, if_pos isBehind]

theorem call_beyond {cursor : Cursor} {offset : Int} (inside : cursor.offset ≤ cursor.text.length)
    (isBeyond : cursor.text.length < offset) :
    cursor.call offset = (.error (.beyond offset cursor.text.length), cursor) := by
  have notBehind : ¬offset < cursor.offset := by omega
  apply call_of_error
  rw [advance, if_neg notBehind]
  exact if_pos isBeyond

variable {text : Text} {reached : Nat}

theorem call_reaching {offset : Nat} (ordered : reached ≤ offset) (inside : offset ≤ text.length) :
    (reaching text reached).call offset =
      (.ok (behind (text.take offset)), reaching text offset) := by
  rw [call_of_ok (advance_reaching ordered inside), reaching_eq]

/-- A call leaves a cursor inside of its text. -/
theorem exists_call_eq (inside : reached ≤ text.length) (offset : Int) :
    ∃ next ≤ text.length, ((reaching text reached).call offset).2 = reaching text next := by
  by_cases isBehind : offset < reached
  · exact ⟨reached, inside, congrArg Prod.snd (call_behind isBehind)⟩
  by_cases isBeyond : text.length < offset
  · exact ⟨reached, inside, congrArg Prod.snd (call_beyond inside isBeyond)⟩
  obtain ⟨next, rfl⟩ : ∃ next : Nat, offset = next := ⟨offset.toNat, by omega⟩
  exact ⟨next, by omega, by rw [call_reaching (by omega) (by omega)]⟩

theorem exists_calls_eq (inside : reached ≤ text.length) (offsets : List Int) :
    ∃ next ≤ text.length, ((reaching text reached).calls offsets).2 = reaching text next := by
  induction offsets generalizing reached with
  | nil => exact ⟨reached, inside, rfl⟩
  | cons offset offsets induction =>
      obtain ⟨next, nextInside, isNext⟩ := exists_call_eq inside offset
      unfold calls
      dsimp only
      rw [isNext]
      exact induction nextInside

theorem calls_reaching {offsets : List Nat} (ordered : offsets.Pairwise (· ≤ ·))
    (ahead : ∀ offset ∈ offsets, reached ≤ offset)
    (inside : ∀ offset ∈ offsets, offset ≤ text.length) :
    ((reaching text reached).calls (offsets.map Int.ofNat)).1 =
      offsets.map fun offset => .ok (behind (text.take offset)) := by
  induction offsets generalizing reached with
  | nil => rfl
  | cons offset offsets induction =>
      obtain ⟨firstInside, othersInside⟩ := List.forall_mem_cons.mp inside
      obtain ⟨behindFirst, othersOrdered⟩ := List.pairwise_cons.mp ordered
      have first := call_reaching (ahead offset List.mem_cons_self) firstInside
      rw [List.map_cons, calls, Int.ofNat_eq_natCast, first]
      dsimp only
      rw [induction othersOrdered behindFirst othersInside, List.map_cons]

/-- What calls of a cursor come to.

After any calls the cursor is inside of the text, at the position behind the text before it.  Sent to
an offset that is not behind it and not past the end, it goes there and gives the position behind the
text before that offset; otherwise it stays where it is.  So calls with offsets in order all give
their positions.  Positions keep the order of offsets, and two offsets have the same one if there is
nothing between them but carriage returns. -/
theorem positions_of_calls (text : Text) :
    (∀ (before : List Int) (cursor : Cursor), ((ofText text).calls before).2 = cursor →
      cursor.text = text ∧ cursor.offset ≤ text.length ∧
      cursor.position = behind (text.take cursor.offset) ∧
      (∀ offset : Nat, cursor.offset ≤ offset → offset ≤ text.length →
        cursor.call offset =
          (.ok (behind (text.take offset)), ⟨text, offset, behind (text.take offset)⟩)) ∧
      (∀ offset : Int, offset < cursor.offset →
        cursor.call offset = (.error (.behind offset cursor.offset), cursor)) ∧
      (∀ offset : Int, text.length < offset →
        cursor.call offset = (.error (.beyond offset text.length), cursor))) ∧
    (∀ offsets : List Nat, offsets.Pairwise (· ≤ ·) → (∀ offset ∈ offsets, offset ≤ text.length) →
      ((ofText text).calls (offsets.map Int.ofNat)).1 =
        offsets.map fun offset => .ok (behind (text.take offset))) ∧
    (∀ first last : Nat, first ≤ last →
      (behind (text.take first)).key ≤ (behind (text.take last)).key) ∧
    (∀ first last : Nat, first < last → last ≤ text.length →
      (behind (text.take first) = behind (text.take last) ↔
        ∀ code ∈ (text.drop first).take (last - first), code = '\r')) := by
  refine ⟨?_, ?_, ?_, ?_⟩
  · rintro before cursor rfl
    rw [ofText_eq_reaching]
    obtain ⟨reached, inside, isReached⟩ := exists_calls_eq (Nat.zero_le text.length) before
    rw [isReached]
    refine ⟨rfl, inside, ?_, ?_, ?_, ?_⟩
    · rw [reaching_eq]
    · intro offset ordered offsetInside
      rw [← reaching_eq]
      exact call_reaching ordered offsetInside
    · exact fun offset isBehind => call_behind isBehind
    · exact fun offset isBeyond => call_beyond inside isBeyond
  · intro offsets ordered inside
    rw [ofText_eq_reaching]
    exact calls_reaching ordered (fun offset _ => Nat.zero_le offset) inside
  · intro first last ordered
    rw [← Position.behind_past ordered]
    exact Position.le_past _ _
  · intro first last ordered _
    rw [← Position.behind_past (Nat.le_of_lt ordered)]
    exact Position.eq_past_iff _ _

theorem positions_of_calls_pair :
    ((ofText "a\r\n😀b").calls [1, 2, 4]).1 = [.ok ⟨0, 1⟩, .ok ⟨0, 1⟩, .ok ⟨1, 2⟩] ∧
      ((ofText "a\r\n😀b").calls [4]).2.call 3 =
        (.error (.behind 3 4), ((ofText "a\r\n😀b").calls [4]).2) ∧
      behind (("a\r\n😀b" : Text).take 1) = behind (("a\r\n😀b" : Text).take 2) := by
  obtain ⟨afterCalls, inOrder, _, sameIff⟩ := positions_of_calls "a\r\n😀b"
  obtain ⟨_, _, _, _, isBehind, _⟩ := afterCalls [4] _ rfl
  refine ⟨?_, ?_, ?_⟩
  · exact (inOrder [1, 2, 4] (by decide) (by decide)).trans rfl
  · exact isBehind 3 (by decide)
  · exact (sameIff 1 2 (by decide) (by decide)).mpr (by decide)

end Cursor

end ConfigGraph
