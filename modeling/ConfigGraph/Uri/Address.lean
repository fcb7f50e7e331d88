import ConfigGraph.Number.Literal

/-!
# Internet addresses in URIs

Which texts are written addresses of version 4 or 6.
-/

namespace ConfigGraph.Address

/-- Whether a text is one of the four numbers of an address of version 4: at most 255, without
leading zeros. -/
def isOctet (text : Text) : Bool :=
  text != [] && text.all CodePoint.isAsciiDigit && text.length ≤ 3 &&
    (text == ("0" : Text) || text.head? != some ('0' : CodePoint)) && Number.ofDigits text ≤ 255

def isVersion4 (text : Text) : Bool :=
  let octets := text.splitOn '.'
  octets.length == 4 && octets.all isOctet

/-- Whether a text is one of the groups of an address of version 6. -/
def isGroup (text : Text) : Bool :=
  text != [] && text.length ≤ 4 && text.all fun code => code.hexDigit?.isSome

/-- The groups of an address, with two in the place of an address of version 4 at the end.  Nothing
if a group that holds points is no such address. -/
def expandLast? (groups : List Text) : Option (List Text) :=
  match groups.getLast? with
  | some final =>
      if final.contains ('.' : CodePoint) then
        if isVersion4 final then some (groups.dropLast ++ [("0" : Text), ("0" : Text)]) else none
      else some groups
  | none => none

/-- The groups on one side of a gap.  A side that is empty is written as one empty group. -/
def sideOfGap (groups : List Text) : List Text := if groups = [[]] then [] else groups

/-- Whether groups make an address of version 6: eight in all, or fewer with a single gap between
them, which is written as an empty group inside. -/
def areGroups (groups : List Text) : Bool :=
  let inner := (groups.drop 1).dropLast
  if inner.contains [] then
    let gap := (inner.takeWhile (· != [])).length + 1
    let before := sideOfGap (groups.take gap)
    let behind := sideOfGap (groups.drop (gap + 1))
    before.length + behind.length < 8 && before.all isGroup && behind.all isGroup
  else groups.length == 8 && groups.all isGroup

/-- Whether a text is an address of version 6 without a zone. -/
def isPlainVersion6 (text : Text) : Bool :=
  let groups := text.splitOn ':'
  3 ≤ groups.length &&
    match expandLast? groups with
    | some groups => areGroups groups
    | none => false

/-- Whether a text is an address of version 6.  A zone may stand behind a percent sign. -/
def isVersion6 (text : Text) : Bool :=
  match text.splitOn '%' with
  | [address] => isPlainVersion6 address
  | [address, zone] => zone != [] && isPlainVersion6 address
  | _ => false

end ConfigGraph.Address
