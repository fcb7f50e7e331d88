import ConfigGraph.Text.Basic

/-!
# Base 64

Lenient decoding: code points outside the alphabet are passed over, and the padding that completes
a group of four ends the data.
-/

namespace ConfigGraph.Text

/-- What can be wrong with data in base 64. -/
inductive Base64Fault where
  /-- The data end inside a group that is not padded. -/
  | incorrectPadding
  /-- One digit is left over behind the complete groups. -/
  | extraDigit (digits : Nat)
  deriving DecidableEq

def Base64Fault.message : Base64Fault → Text
  | .incorrectPadding => "Incorrect padding"
  | .extraDigit digits =>
      "Invalid base64-encoded string: number of data characters (" ++ ofNat digits ++
        ") cannot be 1 more than a multiple of 4"

/-- The value of a digit in base 64. -/
def base64Digit? (code : CodePoint) : Option Nat :=
  if code.within 0x41 0x5a then some (code.value - 0x41)
  else if code.within 0x61 0x7a then some (code.value - 0x61 + 26)
  else if code.within 0x30 0x39 then some (code.value - 0x30 + 52)
  else if code = '+' then some 62
  else if code = '/' then some 63
  else none

/-- The bytes of a group of digits, as far as the digits fill them. -/
def base64Bytes (digits : List Nat) : List UInt8 :=
  match digits with
  | [a, b] => [UInt8.ofNat (a * 4 + b / 16)]
  | [a, b, c] => [UInt8.ofNat (a * 4 + b / 16), UInt8.ofNat (b % 16 * 16 + c / 4)]
  | [a, b, c, d] =>
      [UInt8.ofNat (a * 4 + b / 16), UInt8.ofNat (b % 16 * 16 + c / 4),
        UInt8.ofNat (c % 4 * 64 + d)]
  | _ => []

/-- Decodes data behind some complete groups.  The digits of the group that is not complete yet are
given, and the number of padding characters since the last of them. -/
def decodeBase64From (groups : Nat) (group : List Nat) (pads : Nat) :
    Text → Except Base64Fault (List UInt8)
  | [] =>
      if group = [] then .ok []
      else if group.length = 1 then .error (.extraDigit (groups * 4 + 1))
      else .error .incorrectPadding
  | code :: rest =>
      if code = '=' then
        if 2 ≤ group.length then
          if 4 ≤ group.length + (pads + 1) then .ok (base64Bytes group)
          else decodeBase64From groups group (pads + 1) rest
        else decodeBase64From groups group pads rest
      else
        match base64Digit? code with
        | none => decodeBase64From groups group pads rest
        | some digit =>
            if group.length = 3 then
              (decodeBase64From (groups + 1) [] 0 rest).map
                (base64Bytes (group ++ [digit]) ++ ·)
            else decodeBase64From groups (group ++ [digit]) 0 rest

/-- The bytes that a text stands for. -/
def decodeBase64 (text : Text) : Except Base64Fault (List UInt8) := decodeBase64From 0 [] 0 text

end ConfigGraph.Text
