import ConfigGraph.Proofs.Grammar.Gap
import ConfigGraph.Proofs.Number.Literal

/-!
# Numbers and strings at the start of a text

What the lexer takes for a number or a string is one, and it takes the whole of one that a boundary
follows.  Numbers are read as far as they go, so that their parts need a reason to stop.
-/

namespace ConfigGraph.Grammar

open Lexer

/-! ## Classes of code points -/

theorem value_of_isDecimalDigit {code : CodePoint} (digit : code.isDecimalDigit = true) :
    (0x30 ≤ code.value ∧ code.value ≤ 0x39) ∨ 0x660 ≤ code.value := by
  unfold CodePoint.isDecimalDigit CodePoint.decimalDigit? at digit
  rw [Option.isSome_map, List.find?_isSome] at digit
  obtain ⟨least, member, inside⟩ := digit
  have scripts : ∀ value ∈ Text.decimalZeros, value = 0x30 ∨ 0x660 ≤ value := by decide
  rw [CodePoint.within_iff] at inside
  rcases scripts least member with rfl | later
  · exact .inl inside
  · exact .inr (Nat.le_trans later inside.1)

theorem value_of_isNameStart {code : CodePoint} (start : isNameStart code = true) :
    (0x41 ≤ code.value ∧ code.value ≤ 0x5a) ∨ (0x61 ≤ code.value ∧ code.value ≤ 0x7a) ∨
      code.value = 0x5f := by
  simp only [isNameStart, CodePoint.isAsciiLetter, CodePoint.within_iff, Bool.or_eq_true,
    beq_iff_eq] at start
  rcases start with (upper | lower) | rfl
  · exact .inl upper
  · exact .inr (.inl lower)
  · exact .inr (.inr rfl)

theorem not_isNameStart_of_isDecimalDigit {code : CodePoint} (digit : code.isDecimalDigit = true) :
    ¬isNameStart code = true := by
  intro start
  have digitValue := value_of_isDecimalDigit digit
  have startValue := value_of_isNameStart start
  omega

theorem isNamePart_boundary : ∀ code ∈ boundaries, isNamePart code = false := by decide

theorem isDecimalDigit_boundary : ∀ code ∈ boundaries, code.isDecimalDigit = false := by decide

/-- A code point with which a token can start is none of the boundaries. -/
theorem notMem_boundaries_of_isNameStart {code : CodePoint} (start : isNameStart code = true) :
    code ∉ boundaries := by
  intro member
  have part : isNamePart code = true := by simp [isNamePart, start]
  rw [isNamePart_boundary code member] at part
  cases part

theorem not_isSign_of_isDecimalDigit {code : CodePoint} (digit : code.isDecimalDigit = true) :
    Number.Literal.isSign code = false := by
  rw [Bool.eq_false_iff]
  intro sign
  simp only [Number.Literal.isSign, Bool.or_eq_true, beq_iff_eq] at sign
  rcases sign with rfl | rfl <;> exact absurd digit (by decide)

theorem not_isDecimalDigit_of_isExponentMark {code : CodePoint}
    (mark : Number.Literal.isExponentMark code = true) : code.isDecimalDigit = false := by
  simp only [Number.Literal.isExponentMark, Bool.or_eq_true, beq_iff_eq] at mark
  rcases mark with rfl | rfl <;> decide

theorem ne_point_of_isExponentMark {code : CodePoint}
    (mark : Number.Literal.isExponentMark code = true) : (code == '.') = false := by
  rw [beq_eq_false_iff_ne]
  rintro rfl
  exact absurd mark (by decide)

theorem isExponentMark_boundary :
    ∀ code ∈ boundaries, Number.Literal.isExponentMark code = false := by decide

theorem isSign_boundary : ∀ code ∈ boundaries, Number.Literal.isSign code = false := by decide

theorem ne_point_boundary : ∀ code ∈ boundaries, (code == '.') = false := by decide

theorem Delimited.stops {good : CodePoint → Bool} {rest : Text} (delimited : Delimited rest)
    (noBoundary : ∀ code ∈ boundaries, good code = false) : Stops good rest := by
  rintro code rest rfl
  exact noBoundary code delimited.head_mem

theorem Digits.of_takeWhile {text : Text}
    (nonempty : text.takeWhile CodePoint.isDecimalDigit ≠ []) :
    Digits (text.takeWhile CodePoint.isDecimalDigit) :=
  ⟨nonempty, fun _ member => List.mem_takeWhile_imp member⟩

/-! ## Numbers -/

section Numbers

open ConfigGraph.Number.Literal

/-- What a literal takes for its fraction is one. -/
theorem fraction_of_take (text : Text) :
    Fraction (text.take (fractionLength (fraction? CodePoint.isDecimalDigit text))) := by
  cases text with
  | nil => exact .absent
  | cons point rest =>
      by_cases present : point = '.' ∧ rest.takeWhile CodePoint.isDecimalDigit ≠ []
      · obtain ⟨isPoint, nonempty⟩ := present
        have digits := Digits.of_takeWhile nonempty
        simp only [fraction?, isPoint, nonempty, ne_eq, not_false_eq_true, and_self, if_true,
          fractionLength, Option.map_some, Option.getD_some, List.take_succ_cons,
          take_length_takeWhile]
        exact .present digits
      · simp only [fraction?, if_neg present, fractionLength, Option.map_none, Option.getD_none,
          List.take_zero]
        exact .absent

/-- What a literal takes for its exponent is one. -/
theorem exponent_of_take (text : Text) :
    Exponent (text.take (exponentLength (exponent? CodePoint.isDecimalDigit text))) := by
  cases text with
  | nil => exact .absent
  | cons mark rest =>
      by_cases present : isExponentMark mark = true ∧
          (rest.drop (rest.head?.filter isSign).toList.length).takeWhile
            CodePoint.isDecimalDigit ≠ []
      · have found := present
        obtain ⟨isMark, nonempty⟩ := present
        have digits := Digits.of_takeWhile nonempty
        simp only [exponent?, if_pos found, exponentLength, Option.map_some, Option.getD_some]
        cases rest with
        | nil => simp at nonempty
        | cons sign rest =>
            by_cases isSigned : isSign sign = true
            · simp only [List.head?_cons, Option.filter_some, isSigned, if_true,
                Option.toList_some, List.length_singleton, List.drop_one, List.tail_cons]
                at digits ⊢
              rw [Nat.add_comm, ← Nat.add_assoc, List.take_succ_cons, List.take_succ_cons,
                take_length_takeWhile]
              exact .signed isMark isSigned digits
            · simp only [List.head?_cons, Option.filter_some, isSigned, Bool.false_eq_true,
                if_false, Option.toList_none, List.length_nil, List.drop_zero] at digits ⊢
              rw [Nat.add_comm, List.take_succ_cons, take_length_takeWhile]
              exact .unsigned isMark digits
      · simp only [exponent?, if_neg present, exponentLength, Option.map_none, Option.getD_none,
          List.take_zero]
        exact .absent

theorem numberLexeme_of_take {first : CodePoint} {rest : Text}
    (digit : first.isDecimalDigit = true) :
    let more := rest.takeWhile CodePoint.isDecimalDigit
    NumberLexeme (first :: rest.take
      ((after CodePoint.isDecimalDigit (first :: more) (rest.drop more.length)).length - 1)) := by
  intro more
  have whole : Digits (first :: more) :=
    ⟨List.cons_ne_nil _ _, List.forall_mem_cons.mpr
      ⟨digit, fun _ member => List.mem_takeWhile_imp member⟩⟩
  have fraction := fraction_of_take (rest.drop more.length)
  have exponent := exponent_of_take ((rest.drop more.length).drop
    (fractionLength (fraction? CodePoint.isDecimalDigit (rest.drop more.length))))
  have parts := NumberLexeme.intro whole fraction exponent
  simp only [Number.Literal.length, after, List.length_cons]
  rw [show ∀ a b c : Nat, a + 1 + b + c - 1 = a + (b + c) by omega, List.take_add, List.take_add,
    take_length_takeWhile]
  exact parts

theorem fraction?_append {fraction rest : Text} (isFraction : Fraction fraction)
    (stops : Stops CodePoint.isDecimalDigit rest) (noPoint : Stops (· == '.') rest) :
    fractionLength (fraction? CodePoint.isDecimalDigit (fraction ++ rest)) = fraction.length := by
  rw [fraction?_before stops noPoint]
  cases isFraction with
  | absent => rfl
  | @present digits isDigits =>
      have row : digits.takeWhile CodePoint.isDecimalDigit = digits :=
        List.takeWhile_eq_self_iff.mpr isDigits.digit
      simp only [fraction?, row, isDigits.nonempty, ne_eq, not_false_eq_true, and_self, if_true,
        fractionLength, Option.map_some, Option.getD_some, List.length_cons]

theorem exponent?_eq_some {mark : CodePoint} {text digits : Text} {sign : Option CodePoint}
    (isMark : isExponentMark mark = true) (signed : text.head?.filter isSign = sign)
    (split : text.drop sign.toList.length = digits) (isDigits : Digits digits) :
    exponent? CodePoint.isDecimalDigit (mark :: text) = some (sign, digits) := by
  have row : digits.takeWhile CodePoint.isDecimalDigit = digits :=
    List.takeWhile_eq_self_iff.mpr isDigits.digit
  simp only [exponent?, isMark, signed, split, row, isDigits.nonempty, ne_eq, not_false_eq_true,
    and_self, if_true]

theorem exponent?_append {exponent rest : Text} (isExponent : Exponent exponent)
    (delimited : Delimited rest) :
    exponentLength (exponent? CodePoint.isDecimalDigit (exponent ++ rest)) = exponent.length := by
  rw [exponent?_before (delimited.stops isDecimalDigit_boundary)
    (delimited.stops isExponentMark_boundary) (delimited.stops isSign_boundary)]
  cases isExponent with
  | absent => rfl
  | @unsigned mark digits isMark isDigits =>
      obtain ⟨head, tail, rfl⟩ := List.exists_cons_of_ne_nil isDigits.nonempty
      have noSign := not_isSign_of_isDecimalDigit isDigits.head_isDigit
      have unsigned : (head :: tail).head?.filter isSign = none := by simp [Option.filter, noSign]
      rw [exponent?_eq_some isMark unsigned rfl isDigits]
      simp [exponentLength, Nat.add_comm]
  | @signed mark sign digits isMark isSigned isDigits =>
      have signed : (sign :: digits).head?.filter isSign = some sign := by
        simp [Option.filter, isSigned]
      rw [exponent?_eq_some isMark signed rfl isDigits]
      simp [exponentLength]
      omega

/-- An exponent, or what follows it, continues no digits and is no point. -/
theorem Exponent.append_stops {exponent rest : Text} (isExponent : Exponent exponent)
    (delimited : Delimited rest) :
    Stops CodePoint.isDecimalDigit (exponent ++ rest) ∧ Stops (· == '.') (exponent ++ rest) := by
  have marked {mark : CodePoint} {behind : Text} (isMark : isExponentMark mark = true) :
      Stops CodePoint.isDecimalDigit (mark :: behind) ∧ Stops (· == '.') (mark :: behind) :=
    ⟨.cons (not_isDecimalDigit_of_isExponentMark isMark), .cons (ne_point_of_isExponentMark isMark)⟩
  cases isExponent with
  | absent =>
      exact ⟨delimited.stops isDecimalDigit_boundary, delimited.stops ne_point_boundary⟩
  | unsigned isMark _ => exact marked isMark
  | signed isMark _ _ => exact marked isMark

/-- The literal at the start of a text is the whole number in front of a boundary. -/
theorem length_after_append {first : CodePoint} {more rest : Text}
    (lexeme : NumberLexeme (first :: more)) (delimited : Delimited rest) :
    first.isDecimalDigit = true ∧
      let digits := (more ++ rest).takeWhile CodePoint.isDecimalDigit
      (after CodePoint.isDecimalDigit (first :: digits)
        ((more ++ rest).drop digits.length)).length = more.length + 1 := by
  generalize covered : first :: more = text at lexeme
  obtain @⟨whole, fraction, exponent, isWhole, isFraction, isExponent⟩ := lexeme
  obtain ⟨head, tail, rfl⟩ := List.exists_cons_of_ne_nil isWhole.nonempty
  have same : first = head ∧ more = tail ++ (fraction ++ exponent) := List.cons.inj covered
  obtain ⟨rfl, rfl⟩ := same
  refine ⟨isWhole.head_isDigit, ?_⟩
  obtain ⟨exponentStops, noPoint⟩ := isExponent.append_stops delimited
  have wholeStops : Stops CodePoint.isDecimalDigit (fraction ++ (exponent ++ rest)) := by
    cases isFraction with
    | absent => exact exponentStops
    | present _ => exact .cons (by decide)
  have row :
      (tail ++ (fraction ++ exponent) ++ rest).takeWhile CodePoint.isDecimalDigit = tail := by
    simp only [List.append_assoc]
    exact wholeStops.takeWhile_append fun code member =>
      isWhole.digit code (List.mem_cons_of_mem _ member)
  have behindWhole : (tail ++ (fraction ++ exponent) ++ rest).drop tail.length =
      fraction ++ (exponent ++ rest) := by simp
  have behindFraction : (fraction ++ (exponent ++ rest)).drop fraction.length =
      exponent ++ rest := by simp
  simp only [row, behindWhole, Number.Literal.length, after,
    fraction?_append isFraction exponentStops noPoint, behindFraction,
    exponent?_append isExponent delimited, List.length_cons, List.length_append]
  omega

end Numbers

/-! ## Strings -/

theorem stringLength?_quote (rest : Text) :
    stringLength? (CodePoint.ofChar '"' :: rest) = some 1 := by
  unfold stringLength?
  rw [if_pos rfl]

theorem stringLength?_plain {code : CodePoint} {rest : Text} (noQuote : code ≠ '"')
    (noEscape : code ≠ '\\') (inLine : code ≠ '\n') :
    stringLength? (code :: rest) = (stringLength? rest).map (· + 1) := by
  conv => lhs; unfold stringLength?
  rw [if_neg noQuote, if_neg inLine, if_neg noEscape]

theorem stringLength?_escape {code : CodePoint} {rest : Text} (inLine : code ≠ '\n') :
    stringLength? (CodePoint.ofChar '\\' :: code :: rest) = (stringLength? rest).map (· + 2) := by
  conv => lhs; unfold stringLength?
  rw [if_neg (by decide), if_neg (by decide), if_pos rfl]
  dsimp only
  rw [if_neg inLine]

theorem stringBody_of_stringLength? {text : Text} {length : Nat}
    (found : stringLength? text = some length) :
    ∃ body rest, StringBody body ∧ text = body ++ CodePoint.ofChar '"' :: rest ∧
      length = body.length + 1 := by
  -- A quote ends the body; the end of the line or of the text inside of it gives no length.
  induction text using stringLength?.induct generalizing length with
  | case1 => simp [stringLength?] at found
  | case2 rest =>
      rw [stringLength?_quote] at found
      cases found
      exact ⟨[], rest, .nil, rfl, rfl⟩
  | case3 rest _ =>
      unfold stringLength? at found
      rw [if_neg (by decide), if_pos rfl] at found
      cases found
  | case4 _ _ =>
      unfold stringLength? at found
      rw [if_neg (by decide), if_neg (by decide), if_pos rfl] at found
      cases found
  | case5 tail _ _ =>
      unfold stringLength? at found
      rw [if_neg (by decide), if_neg (by decide), if_pos rfl] at found
      dsimp only at found
      rw [if_pos rfl] at found
      cases found
  | case6 taken tail inLine _ _ induction =>
      rw [stringLength?_escape inLine] at found
      obtain ⟨shorter, inner, rfl⟩ := Option.map_eq_some_iff.mp found
      obtain ⟨body, rest, isBody, rfl, rfl⟩ := induction inner
      exact ⟨_, rest, .escape inLine isBody, rfl, rfl⟩
  | case7 code rest noQuote inLine noEscape induction =>
      rw [stringLength?_plain noQuote noEscape inLine] at found
      obtain ⟨shorter, inner, rfl⟩ := Option.map_eq_some_iff.mp found
      obtain ⟨body, rest, isBody, rfl, rfl⟩ := induction inner
      exact ⟨_, _, .plain noQuote noEscape inLine isBody, rfl, rfl⟩

theorem room_of_stringLength? {text : Text} {length : Nat}
    (found : stringLength? text = some length) : length ≤ text.length := by
  obtain ⟨body, rest, _, rfl, rfl⟩ := stringBody_of_stringLength? found
  simp only [List.length_append, List.length_cons]
  omega

theorem StringBody.stringLength?_append {body : Text} (isBody : StringBody body) (rest : Text) :
    stringLength? (body ++ (CodePoint.ofChar '"' :: rest)) = some (body.length + 1) := by
  induction isBody with
  | nil => exact stringLength?_quote rest
  | plain noQuote noEscape inLine _ induction =>
      rw [List.cons_append, stringLength?_plain noQuote noEscape inLine, induction]
      rfl
  | escape inLine _ induction =>
      rw [List.cons_append, List.cons_append, stringLength?_escape inLine, induction]
      rfl

end ConfigGraph.Grammar
