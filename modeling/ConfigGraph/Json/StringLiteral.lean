import ConfigGraph.Text.Basic

/-!
# String literals

The escapes of JSON strings, which are also those of the configuration language.  A pair of
escaped surrogates spells one code point; a surrogate without its partner stands for itself.
-/

namespace ConfigGraph.Json

/-- What can be wrong with a string literal; the numbers say how many code points of the text are
left from the fault on. -/
inductive StringFault where
  /-- There is no closing quote. -/
  | unterminated
  | controlCharacter (left : Nat)
  /-- No such escape. -/
  | unknownEscape (left : Nat)
  /-- A numeric escape without its four digits. -/
  | numericEscape (left : Nat)
  deriving DecidableEq

/-- The escapes of a single letter. -/
def shortEscape? (letter : CodePoint) : Option CodePoint :=
  if letter = '"' ∨ letter = '\\' ∨ letter = '/' then some letter
  else if letter = 'b' then some ⟨8, by decide⟩
  else if letter = 'f' then some ⟨12, by decide⟩
  else if letter = 'n' then some '\n'
  else if letter = 'r' then some '\r'
  else if letter = 't' then some '\t'
  else none

/-- The code point with four hexadecimal digits. -/
def fourDigits? (a b c d : CodePoint) : Option CodePoint := do
  let first ← a.hexDigit?
  let second ← b.hexDigit?
  let third ← c.hexDigit?
  let fourth ← d.hexDigit?
  CodePoint.ofNat? (((first * 16 + second) * 16 + third) * 16 + fourth)

/-- The code point that two surrogates stand for. -/
def joinSurrogates (high low : CodePoint) : CodePoint :=
  (CodePoint.ofNat? (0x10000 + (high.value - 0xd800) * 0x400 + (low.value - 0xdc00))).getD high

/-- Adds a code point in front of a decoded rest, joining it with a low surrogate escape that
comes right behind. -/
def consEscaped (unit : CodePoint) (next : Option CodePoint) (value : Text) : Text :=
  match next, value with
  | some low, _ :: rest =>
      if unit.isHighSurrogate && low.isLowSurrogate then joinSurrogates unit low :: rest
      else unit :: value
  | _, _ => unit :: value

/-- The unit that an escape at the start of the text spells in four digits, if there is one. -/
def escapedUnit? : Text → Option CodePoint
  | backslash :: letter :: a :: b :: c :: d :: _ =>
      if backslash = '\\' ∧ letter = 'u' then fourDigits? a b c d else none
  | _ => none

/-- Decodes the body of a literal up to its closing quote, and gives the text behind the quote.
Control characters may stand unescaped only if the literal is not strict. -/
def decodeBody (strict : Bool) : Text → Except StringFault (Text × Text)
  | [] => .error .unterminated
  | code :: rest =>
      if code = '"' then .ok ([], rest)
      else if code ≠ '\\' then
        if strict && code.value < 0x20 then .error (.controlCharacter (rest.length + 1))
        else
          match decodeBody strict rest with
          | .error fault => .error fault
          | .ok (value, behind) => .ok (code :: value, behind)
      else
        match rest with
        | [] => .error .unterminated
        | letter :: tail =>
            if letter = 'u' then
              match tail with
              | a :: b :: c :: d :: behindDigits =>
                  match fourDigits? a b c d, behindDigits with
                  | some unit, _ :: _ =>
                      match decodeBody strict behindDigits with
                      | .error fault => .error fault
                      | .ok (value, behind) =>
                          .ok (consEscaped unit (escapedUnit? behindDigits) value, behind)
                  | _, _ => .error (.numericEscape (tail.length + 1))
              | _ => .error (.numericEscape (tail.length + 1))
            else
              match shortEscape? letter with
              | none => .error (.unknownEscape (tail.length + 2))
              | some meant =>
                  match decodeBody strict tail with
                  | .error fault => .error fault
                  | .ok (value, behind) => .ok (meant :: value, behind)

/-- The value of a whole literal with its quotes, if it is well formed; control characters may stand
unescaped. -/
def stringLiteral? : Text → Option Text
  | [] => none
  | quote :: rest =>
      match decodeBody false rest with
      | .ok (value, []) => if quote = '"' then some value else none
      | _ => none

end ConfigGraph.Json
