import ConfigGraph.Json.StringLiteral
import ConfigGraph.Proofs.Text.Digits
import Mathlib.Data.List.Chain

/-!
# Spellings of strings

`Spelling` lists the ways in which a string can be written between quotes, without a look at how it
is read.  The decoder reads exactly the spellings, up to one thing: what is written for a high
surrogate and a low one behind it is also what is written for the code point that the two make.  A
string without such a pair is read from each of its spellings.
-/

namespace ConfigGraph

/-- No high surrogate stands right in front of a low one. -/
def Text.Unpaired (text : Text) : Prop :=
  text.IsChain fun first second => ¬(first.isHighSurrogate = true ∧ second.isLowSurrogate = true)

instance (text : Text) : Decidable text.Unpaired :=
  inferInstanceAs (Decidable (text.IsChain _))

namespace CodePoint

theorem eq_of_value {first second : CodePoint} (same : first.value = second.value) :
    first = second := by
  cases first
  cases second
  cases same
  rfl

theorem hexDigit?_toAsciiLower (code : CodePoint) :
    code.toAsciiLower.hexDigit? = code.hexDigit? := by
  unfold toAsciiLower
  split
  case isTrue capital =>
    simp only [hexDigit?, within_iff]
    split_ifs <;> first | omega | exact congrArg some (by omega) | rfl
  case isFalse => rfl

theorem hexDigit?_eq_some_iff {code : CodePoint} {digit : Nat} :
    code.hexDigit? = some digit ↔ digit < 16 ∧ code.toAsciiLower = ofDigit digit := by
  constructor
  · intro isDigit
    simp only [hexDigit?, within_iff] at isDigit
    simp only [toAsciiLower, ofDigit]
    split_ifs at isDigit <;> simp only [Option.some.injEq] at isDigit
    all_goals
      refine ⟨by omega, ?_⟩
      split_ifs <;> first | omega | (apply eq_of_value; dsimp only; omega)
  · rintro ⟨small, same⟩
    rw [← hexDigit?_toAsciiLower, same, hexDigit?_ofDigit digit small]

end CodePoint

namespace Json

/-! ## Surrogates -/

/-- The first of the two surrogates of a code point. -/
def highHalf (code : CodePoint) : CodePoint :=
  ⟨0xd800 + (code.value - 0x10000) / 0x400, by have := code.value_lt; omega⟩

/-- The second of the two surrogates of a code point. -/
def lowHalf (code : CodePoint) : CodePoint :=
  ⟨0xdc00 + (code.value - 0x10000) % 0x400, by omega⟩

theorem highHalf_lt (code : CodePoint) : (highHalf code).value < 0x10000 := by
  have bounded := code.value_lt
  simp only [highHalf]
  omega

theorem lowHalf_lt (code : CodePoint) : (lowHalf code).value < 0x10000 := by
  simp only [lowHalf]
  omega

theorem isHighSurrogate_highHalf (code : CodePoint) : (highHalf code).isHighSurrogate = true := by
  have bounded := code.value_lt
  rw [CodePoint.isHighSurrogate, CodePoint.within_iff]
  simp only [highHalf]
  omega

theorem isLowSurrogate_lowHalf (code : CodePoint) : (lowHalf code).isLowSurrogate = true := by
  rw [CodePoint.isLowSurrogate, CodePoint.within_iff]
  simp only [lowHalf]
  omega

/-- A high surrogate is no low one. -/
theorem not_isLowSurrogate {code : CodePoint} (isHigh : code.isHighSurrogate = true) :
    ¬code.isLowSurrogate = true := by
  rw [CodePoint.isHighSurrogate, CodePoint.within_iff] at isHigh
  rw [CodePoint.isLowSurrogate, CodePoint.within_iff]
  omega

theorem joinSurrogates_halves {code : CodePoint} (isAstral : 0x10000 ≤ code.value) :
    joinSurrogates (highHalf code) (lowHalf code) = code := by
  have halves : 0x10000 + ((highHalf code).value - 0xd800) * 0x400 +
      ((lowHalf code).value - 0xdc00) = code.value := by
    simp only [highHalf, lowHalf]
    omega
  unfold joinSurrogates
  rw [halves, CodePoint.ofNat?, dif_pos code.value_lt]
  rfl

/-- Any two surrogates in the right order are the halves of what they make. -/
theorem halves_joinSurrogates {high low : CodePoint} (isHigh : high.isHighSurrogate = true)
    (isLow : low.isLowSurrogate = true) :
    0x10000 ≤ (joinSurrogates high low).value ∧ highHalf (joinSurrogates high low) = high ∧
      lowHalf (joinSurrogates high low) = low := by
  rw [CodePoint.isHighSurrogate, CodePoint.within_iff] at isHigh
  rw [CodePoint.isLowSurrogate, CodePoint.within_iff] at isLow
  have inside : 0x10000 + (high.value - 0xd800) * 0x400 + (low.value - 0xdc00) < 0x110000 := by
    omega
  have joined : joinSurrogates high low = ⟨_, inside⟩ := by
    rw [joinSurrogates, CodePoint.ofNat?, dif_pos inside, Option.getD_some]
  rw [joined]
  refine ⟨?_, CodePoint.eq_of_value ?_, CodePoint.eq_of_value ?_⟩
  all_goals
    simp only [highHalf, lowHalf]
    omega

/-! ## Spellings -/

/-- An escape with the four digits of a unit, in either letter case. -/
inductive SpellsUnit (unit : CodePoint) : Text → Prop where
  | intro {digits : Text} :
      unit.value < 0x10000 →
      Text.toAsciiLower digits = Text.padded 16 4 unit.value →
      SpellsUnit unit (CodePoint.ofChar '\\' :: CodePoint.ofChar 'u' :: digits)

/-- The letters of the escapes of a single letter, with what they stand for. -/
def shortEscapes : List (CodePoint × CodePoint) :=
  [('"', '"'), ('\\', '\\'), ('/', '/'), ('b', '\x08'), ('f', '\x0c'), ('n', '\n'), ('r', '\r'),
    ('t', '\t')]

/-- The ways in which a code point is written in a string, where some stand for themselves. -/
inductive Spells (raw : CodePoint → Prop) (code : CodePoint) : Text → Prop where
  | plain : raw code → Spells raw code [code]
  | short {letter : CodePoint} :
      (letter, code) ∈ shortEscapes →
      Spells raw code [CodePoint.ofChar '\\', letter]
  | unit {escape : Text} : SpellsUnit code escape → Spells raw code escape
  | pair {first second : Text} :
      0x10000 ≤ code.value →
      SpellsUnit (highHalf code) first →
      SpellsUnit (lowHalf code) second →
      Spells raw code (first ++ second)

/-- The ways in which a string is written: `Spelling raw value body` spells each code point of the
value on its own. -/
inductive Spelling (raw : CodePoint → Prop) : Text → Text → Prop where
  | nil : Spelling raw [] []
  | cons {code : CodePoint} {value piece body : Text} :
      Spells raw code piece →
      Spelling raw value body →
      Spelling raw (code :: value) (piece ++ body)

/-- A code point that may stand for itself in a string; if the string is strict then no control
character may. -/
structure IsPlain (strict : Bool) (code : CodePoint) : Prop where
  noQuote : code ≠ '"'
  noEscape : code ≠ '\\'
  noControl : strict = true → 0x20 ≤ code.value

theorem Spells.mono {raw other : CodePoint → Prop} (more : ∀ code, raw code → other code)
    {code : CodePoint} {piece : Text} (spells : Spells raw code piece) :
    Spells other code piece := by
  cases spells with
  | plain isRaw => exact .plain (more code isRaw)
  | short listed => exact .short listed
  | unit isUnit => exact .unit isUnit
  | pair isAstral isHigh isLow => exact .pair isAstral isHigh isLow

theorem Spelling.mono {raw other : CodePoint → Prop} (more : ∀ code, raw code → other code)
    {value body : Text} (spelling : Spelling raw value body) : Spelling other value body := by
  induction spelling with
  | nil => exact .nil
  | cons spells _ induction => exact .cons (spells.mono more) induction

/-! ## Escapes of one code point -/

theorem shortEscape?_eq_some_iff {letter code : CodePoint} :
    shortEscape? letter = some code ↔ (letter, code) ∈ shortEscapes := by
  constructor
  · intro isShort
    unfold shortEscape? at isShort
    split_ifs at isShort with same
    case pos =>
      cases isShort
      rcases same with rfl | rfl | rfl <;> decide
    all_goals
      subst_vars
      cases isShort
      decide
  · have listed : ∀ entry ∈ shortEscapes, shortEscape? entry.1 = some entry.2 := by decide
    exact fun member => listed (letter, code) member

theorem fourDigits?_eq_some_iff {a b c d unit : CodePoint} :
    fourDigits? a b c d = some unit ↔
      unit.value < 0x10000 ∧ Text.toAsciiLower [a, b, c, d] = Text.padded 16 4 unit.value := by
  constructor
  · intro isUnit
    simp only [fourDigits?, Option.bind_eq_bind, Option.bind_eq_some_iff,
      CodePoint.hexDigit?_eq_some_iff] at isUnit
    obtain ⟨w, ⟨smallW, first⟩, x, ⟨smallX, second⟩, y, ⟨smallY, third⟩, z, ⟨smallZ, fourth⟩,
      number⟩ := isUnit
    simp only [CodePoint.ofNat?, Option.dite_none_right_eq_some, Option.some.injEq] at number
    obtain ⟨inside, rfl⟩ := number
    have small : ((w * 16 + x) * 16 + y) * 16 + z < 0x10000 := by omega
    refine ⟨small, ?_⟩
    rw [Text.padded_unit small]
    simp only [Text.toAsciiLower, List.map_cons, List.map_nil, first, second, third, fourth]
    congr <;> omega
  · rintro ⟨small, same⟩
    rw [Text.padded_unit small] at same
    simp only [Text.toAsciiLower, List.map_cons, List.map_nil, List.cons.injEq, and_true] at same
    obtain ⟨first, second, third, fourth⟩ := same
    have isDigit {code : CodePoint} {digit : Nat} (below : digit < 16)
        (same : code.toAsciiLower = .ofDigit digit) : code.hexDigit? = some digit :=
      CodePoint.hexDigit?_eq_some_iff.mpr ⟨below, same⟩
    have digits : (((unit.value / 16 / 16 / 16) * 16 + unit.value / 16 / 16 % 16) * 16 +
        unit.value / 16 % 16) * 16 + unit.value % 16 = unit.value := by omega
    rw [fourDigits?, isDigit (by omega) first, isDigit (by omega) second,
      isDigit (by omega) third, isDigit (by omega) fourth]
    simp only [Option.bind_eq_bind, Option.bind_some, digits]
    exact dif_pos unit.value_lt

theorem SpellsUnit.of_fourDigits? {a b c d unit : CodePoint}
    (isUnit : fourDigits? a b c d = some unit) :
    SpellsUnit unit [CodePoint.ofChar '\\', CodePoint.ofChar 'u', a, b, c, d] := by
  obtain ⟨small, same⟩ := fourDigits?_eq_some_iff.mp isUnit
  exact .intro small same

theorem SpellsUnit.fourDigits? {unit : CodePoint} {escape : Text}
    (isUnit : SpellsUnit unit escape) :
    ∃ a b c d, escape = [CodePoint.ofChar '\\', CodePoint.ofChar 'u', a, b, c, d] ∧
      Json.fourDigits? a b c d = some unit := by
  obtain @⟨digits, small, same⟩ := isUnit
  have count : digits.length = 4 := by
    have lengths := congrArg List.length same
    rwa [Text.padded_unit small, Text.toAsciiLower, List.length_map] at lengths
  obtain ⟨a, b, c, d, rfl⟩ := List.length_eq_four.mp count
  exact ⟨a, b, c, d, rfl, fourDigits?_eq_some_iff.mpr ⟨small, same⟩⟩

variable {strict : Bool} {code : CodePoint} {piece behind value rest : Text}

theorem SpellsUnit.escapedUnit? (isUnit : SpellsUnit code piece) (behind : Text) :
    Json.escapedUnit? (piece ++ behind) = some code := by
  obtain ⟨a, b, c, d, rfl, digits⟩ := isUnit.fourDigits?
  exact digits

theorem escapedUnit?_of_ne {first : CodePoint} (other : first ≠ '\\') (behind : Text) :
    escapedUnit? (first :: behind) = none := by
  unfold escapedUnit?
  split
  case h_1 same =>
    cases same
    exact if_neg fun both => other both.1
  case h_2 => rfl

theorem escapedUnit?_short {letter : CodePoint} (listed : (letter, code) ∈ shortEscapes)
    (behind : Text) : escapedUnit? (CodePoint.ofChar '\\' :: letter :: behind) = none := by
  have noUnit : ∀ entry ∈ shortEscapes, entry.1 ≠ 'u' := by decide
  unfold escapedUnit?
  split
  case h_1 same =>
    cases same
    exact if_neg fun both => noUnit _ listed both.2
  case h_2 => rfl

/-- A low surrogate that is escaped at the start of a text is what the text spells there. -/
theorem Spells.of_escapedUnit? (spells : Spells (IsPlain strict) code piece) {low : CodePoint}
    (found : Json.escapedUnit? (piece ++ behind) = some low) (isLow : low.isLowSurrogate = true) :
    code = low ∧ SpellsUnit low piece := by
  cases spells with
  | plain isPlain =>
      rw [List.singleton_append, escapedUnit?_of_ne isPlain.noEscape] at found
      cases found
  | short listed =>
      rw [List.cons_append, List.singleton_append, escapedUnit?_short listed] at found
      cases found
  | unit isUnit =>
      rw [isUnit.escapedUnit?] at found
      cases found
      exact ⟨rfl, isUnit⟩
  | pair _ isHigh _ =>
      rw [List.append_assoc, isHigh.escapedUnit?] at found
      cases found
      exact absurd isLow (not_isLowSurrogate (isHighSurrogate_highHalf code))

theorem consEscaped_alone {next : Option CodePoint}
    (alone : code.isHighSurrogate = true → ∀ low ∈ next, ¬low.isLowSurrogate = true) :
    consEscaped code next value = code :: value := by
  unfold consEscaped
  split
  case h_1 low _ _ =>
    rw [if_neg]
    intro both
    rw [Bool.and_eq_true] at both
    exact alone both.1 low rfl both.2
  case h_2 => rfl

/-! ## What the decoder reads is a spelling -/

/-- A unit in front of a spelling goes on with it; a pair of surrogates is spelled as what it
makes. -/
theorem Spelling.consEscaped {unit : CodePoint} {escape body : Text}
    (isUnit : SpellsUnit unit escape) (spelling : Spelling (IsPlain strict) value body)
    (rest : Text) :
    Spelling (IsPlain strict)
      (Json.consEscaped unit (Json.escapedUnit? (body ++ CodePoint.ofChar '"' :: rest)) value)
      (escape ++ body) := by
  by_cases alone : unit.isHighSurrogate = true →
      ∀ low ∈ Json.escapedUnit? (body ++ CodePoint.ofChar '"' :: rest), ¬low.isLowSurrogate = true
  · rw [consEscaped_alone alone]
    exact .cons (.unit isUnit) spelling
  · push Not at alone
    obtain ⟨isHigh, low, found, isLow⟩ := alone
    cases spelling with
    | nil =>
        rw [List.nil_append, escapedUnit?_of_ne (by decide)] at found
        cases found
    | @cons code others piece body spells spelling =>
        rw [List.append_assoc] at found
        obtain ⟨rfl, isLowUnit⟩ := spells.of_escapedUnit? found isLow
        obtain ⟨isAstral, high, low⟩ := halves_joinSurrogates isHigh isLow
        rw [List.append_assoc, Option.mem_def.mp found, ← List.append_assoc]
        simp only [Json.consEscaped, isHigh, isLow, Bool.and_self, if_true]
        exact .cons (.pair isAstral (high.symm ▸ isUnit) (low.symm ▸ isLowUnit)) spelling

theorem spelling_of_decodeBody {text : Text} : decodeBody strict text = .ok (value, rest) →
    ∃ body, Spelling (IsPlain strict) value body ∧ text = body ++ CodePoint.ofChar '"' :: rest := by
  -- The errors of the decoder give nothing; each other case puts one piece in front of a spelling.
  fun_induction decodeBody strict text generalizing value rest with
  | case2 behind =>
      rintro ⟨⟩
      exact ⟨[], .nil, rfl⟩
  | case5 code text noQuote noEscape noControl read behind decoded induction =>
      rintro ⟨⟩
      obtain ⟨body, spelling, rfl⟩ := induction decoded
      have isPlain : IsPlain strict code := ⟨noQuote, noEscape, by simpa using noControl⟩
      exact ⟨_, .cons (.plain isPlain) spelling, rfl⟩
  | case8 code noQuote isEscape a b c d unit first tail isUnit read behind decoded induction =>
      rw [decoded]
      rintro ⟨⟩
      cases not_not.mp isEscape
      obtain ⟨body, spelling, covered⟩ := induction decoded
      rw [covered]
      exact ⟨_, spelling.consEscaped (.of_fourDigits? isUnit) behind, rfl⟩
  | case13 code noQuote isEscape letter text noUnit meant isShort read behind decoded induction =>
      rintro ⟨⟩
      cases not_not.mp isEscape
      obtain ⟨body, spelling, rfl⟩ := induction decoded
      exact ⟨_, .cons (.short (shortEscape?_eq_some_iff.mp isShort)) spelling, rfl⟩
  | case7 code noQuote isEscape a b c d unit first tail isUnit fault failed _ =>
      rw [failed]
      intro impossible
      cases impossible
  | _ =>
      intro impossible
      cases impossible

/-! ## A spelling is read -/

theorem decodeBody_plain (isPlain : IsPlain strict code)
    (decoded : decodeBody strict behind = .ok (value, rest)) :
    decodeBody strict (code :: behind) = .ok (code :: value, rest) := by
  have mayStand : ¬(strict && decide (code.value < 0x20)) = true := by
    simpa using isPlain.noControl
  rw [decodeBody.eq_def]
  dsimp only
  rw [if_neg isPlain.noQuote, if_pos isPlain.noEscape, if_neg mayStand, decoded]

theorem decodeBody_short {letter : CodePoint} (listed : (letter, code) ∈ shortEscapes)
    (decoded : decodeBody strict behind = .ok (value, rest)) :
    decodeBody strict (CodePoint.ofChar '\\' :: letter :: behind) = .ok (code :: value, rest) := by
  have noUnit : ∀ entry ∈ shortEscapes, entry.1 ≠ 'u' := by decide
  rw [decodeBody.eq_def]
  dsimp only
  rw [if_neg (by decide), if_neg (by decide), if_neg (noUnit _ listed),
    shortEscape?_eq_some_iff.mpr listed]
  dsimp only
  rw [decoded]

theorem decodeBody_unit (isUnit : SpellsUnit code piece) (nonempty : behind ≠ [])
    (decoded : decodeBody strict behind = .ok (value, rest)) :
    decodeBody strict (piece ++ behind) =
      .ok (consEscaped code (escapedUnit? behind) value, rest) := by
  obtain ⟨a, b, c, d, rfl, digits⟩ := isUnit.fourDigits?
  obtain ⟨first, others, rfl⟩ := List.exists_cons_of_ne_nil nonempty
  simp only [List.cons_append, List.nil_append]
  rw [decodeBody.eq_def]
  dsimp only
  rw [if_neg (by decide), if_neg (by decide), if_pos rfl, digits]
  dsimp only
  rw [decoded]

/-- A code point is read in front of what is read, and comes back unless it makes a pair of
surrogates with what follows. -/
theorem Spells.decodeBody (spells : Spells (IsPlain strict) code piece) (nonempty : behind ≠ [])
    (decoded : Json.decodeBody strict behind = .ok (value, rest)) :
    ∃ read, Json.decodeBody strict (piece ++ behind) = .ok (read, rest) ∧
      ((code.isHighSurrogate = true → ∀ low ∈ escapedUnit? behind, ¬low.isLowSurrogate = true) →
        read = code :: value) := by
  cases spells with
  | plain isPlain => exact ⟨_, decodeBody_plain isPlain decoded, fun _ => rfl⟩
  | short listed => exact ⟨_, decodeBody_short listed decoded, fun _ => rfl⟩
  | unit isUnit => exact ⟨_, decodeBody_unit isUnit nonempty decoded, consEscaped_alone⟩
  | @pair first second isAstral isHigh isLow =>
      have lowDecoded := decodeBody_unit isLow nonempty decoded
      rw [consEscaped_alone fun isHigh =>
        absurd (isLowSurrogate_lowHalf code) (not_isLowSurrogate isHigh)] at lowDecoded
      have whole := decodeBody_unit isHigh (List.append_ne_nil_of_right_ne_nil second nonempty)
        lowDecoded
      simp only [isLow.escapedUnit?, consEscaped, isHighSurrogate_highHalf, isLowSurrogate_lowHalf,
        Bool.and_self, if_true, joinSurrogates_halves isAstral] at whole
      exact ⟨_, by rw [List.append_assoc, whole], fun _ => rfl⟩

/-- A spelling is read, and what is read is what it spells, unless that has a pair of surrogates. -/
theorem Spelling.decodeBody {body : Text} (spelling : Spelling (IsPlain strict) value body)
    (rest : Text) :
    ∃ read, Json.decodeBody strict (body ++ CodePoint.ofChar '"' :: rest) = .ok (read, rest) ∧
      (value.Unpaired → read = value) := by
  induction spelling with
  | nil =>
      rw [List.nil_append, Json.decodeBody.eq_def]
      exact ⟨[], if_pos rfl, fun _ => rfl⟩
  | @cons code value piece body spells spelling induction =>
      obtain ⟨others, decoded, same⟩ := induction
      obtain ⟨read, whole, alone⟩ := spells.decodeBody (by simp) decoded
      rw [List.append_assoc]
      refine ⟨read, whole, fun unpaired => ?_⟩
      rw [← same unpaired.tail]
      apply alone
      -- Only a low surrogate, which is not the half of a pair, could be joined with a high one.
      intro isHigh low found isLow
      cases spelling with
      | nil =>
          rw [List.nil_append, escapedUnit?_of_ne (by decide)] at found
          cases found
      | cons next _ =>
          rw [List.append_assoc] at found
          obtain ⟨rfl, _⟩ := next.of_escapedUnit? found isLow
          exact unpaired.rel ⟨isHigh, isLow⟩

/-! ## Literals -/

/-- What stands between two quotes. -/
def quoted (body : Text) : Text := CodePoint.ofChar '"' :: (body ++ [CodePoint.ofChar '"'])

/-- A string literal that is well formed; control characters may stand unescaped. -/
def WellFormed (literal : Text) : Prop :=
  ∃ value body, Spelling (IsPlain false) value body ∧ literal = quoted body

theorem stringLiteral?_quoted {body : Text} (spelling : Spelling (IsPlain false) value body)
    (unpaired : value.Unpaired) : stringLiteral? (quoted body) = some value := by
  obtain ⟨read, decoded, same⟩ := spelling.decodeBody []
  rw [same unpaired] at decoded
  simp only [stringLiteral?, quoted, decoded, if_true]

theorem isSome_stringLiteral?_iff {literal : Text} :
    (stringLiteral? literal).isSome = true ↔ WellFormed literal := by
  constructor
  · intro isSome
    unfold stringLiteral? at isSome
    split at isSome
    case h_1 => cases isSome
    case h_2 quote text =>
      split at isSome
      case h_1 value decoded =>
        split_ifs at isSome with isQuote
        · obtain ⟨body, spelling, rfl⟩ := spelling_of_decodeBody decoded
          exact ⟨value, body, spelling, by rw [isQuote, quoted]⟩
        · cases isSome
      case h_2 => cases isSome
  · rintro ⟨value, body, spelling, rfl⟩
    obtain ⟨read, decoded, _⟩ := spelling.decodeBody []
    simp only [stringLiteral?, quoted, decoded, if_true, Option.isSome_some]

end Json

end ConfigGraph
