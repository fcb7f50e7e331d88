import ConfigGraph.Yaml.Token.Basic

/-!
# Names in YAML documents

Anchors and aliases, tags, and the handles and addresses that tags consist of.
-/

namespace ConfigGraph.Yaml

/-- Reads the name of an anchor or an alias behind its indicator. -/
def readAnchor (place : Place) : Except Fault (Text × Place) :=
  let (name, behind) := place.takeWhile isWordPart
  if name = [] then place.fail (.expectedWord place.peek)
  else if behind.peek.all fun code => isBlankOrBreak code || isOneOf "?:,]\x7d%@`" code then
    .ok (name, behind)
  else behind.fail (.expectedWord behind.peek)

/-- Reads the handle of a tag: an exclamation mark alone, or a word between two of them. -/
def readHandle (place : Place) : Except Fault (Text × Place) :=
  if place.peek = some '!' then
    let inner := place.next
    if inner.peek = some ' ' then .ok (['!'], inner)
    else
      let (word, behind) := inner.takeWhile isWordPart
      if behind.peek = some '!' then .ok ("!" ++ word ++ "!", behind.next)
      else behind.fail (.expectedExclamation behind.peek)
  else place.fail (.expectedExclamation place.peek)

/-- The code points of addresses that stand for themselves. -/
def isUriPart (code : CodePoint) : Bool :=
  code.isAsciiLetter || code.isAsciiDigit || isOneOf "-;/?:@&=+$,_.!~*'()[]" code

/-- Reads the bytes of a row of escapes. -/
def readUriBytes : Nat → Place → Except Fault (List UInt8 × Place)
  | 0, place => .ok ([], place)
  | bound + 1, place =>
      if place.peek = some '%' then
        let digits := place.next
        let bad := (List.range 2).find? fun index =>
          (digits.look index).all fun code => code.hexDigit?.isNone
        match bad with
        | some index => digits.fail (.expectedUriEscape (digits.look index))
        | none => do
            let value := (digits.rest.take 2).foldl
              (fun value code => value * 16 + code.hexDigit?.getD 0) 0
            let (others, last) ← readUriBytes bound (digits.advance 2)
            return (UInt8.ofNat value :: others, last)
      else .ok ([], place)

/-- Reads the parts of an address.  The first argument bounds their number. -/
def readUriFrom : Nat → Place → Except Fault (Text × Place)
  | 0, place => .ok ([], place)
  | bound + 1, place =>
      if place.peek = some '%' then do
        let (bytes, behind) ← readUriBytes (place.rest.length + 1) place
        match Text.decode? bytes with
        | some text =>
            let (others, last) ← readUriFrom bound behind
            return (text ++ others, last)
        | none =>
            match Text.decodeFault? bytes with
            | some fault => place.fail (.malformedUri fault)
            | none => place.fail (.expectedUriEscape place.peek)
      else
        let (text, behind) := place.takeWhile isUriPart
        if text = [] then .ok ([], place)
        else do
          let (others, last) ← readUriFrom bound behind
          return (text ++ others, last)

/-- Reads an address, which must not be empty. -/
def readUri (place : Place) : Except Fault (Text × Place) :=
  if place.peek.any fun code => isUriPart code || code == '%' then
    readUriFrom (place.rest.length + 1) place
  else place.fail (.expectedUri place.peek)

/-- Whether the text of a tag behind its exclamation mark has another such mark in it. -/
def hasHandle (text : Text) : Bool :=
  (text.takeWhile fun code => !isSpaceOrBreak code).any (· == '!')

def readTag (place : Place) : Except Fault (TagName × Place) := do
  let (name, behind) ←
    if place.look 1 = some '<' then do
      let (tag, behind) ← readUri (place.advance 2)
      if behind.peek = some '>' then pure (TagName.verbatim tag, behind.next)
      else behind.fail (.expectedClosingAngle behind.peek)
    else if (place.look 1).all isBlankOrBreak then pure (TagName.verbatim ['!'], place.next)
    else do
      let (handle, behind) ←
        if hasHandle (place.rest.drop 1) then readHandle place else pure (['!'], place.next)
      let (suffix, last) ← readUri behind
      pure (TagName.shorthand handle suffix, last)
  if behind.peek.all isSpaceOrBreak then return (name, behind)
  behind.fail (.expectedSpace behind.peek)

end ConfigGraph.Yaml
