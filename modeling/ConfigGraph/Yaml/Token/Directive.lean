import ConfigGraph.Number.Literal
import ConfigGraph.Yaml.Token.Name
import ConfigGraph.Yaml.Token.Scalar

/-!
# Directives of YAML documents

Lines that start with a percent sign give the version of the language, or declare a handle for tags.
Directives of other names are passed over.
-/

namespace ConfigGraph.Yaml

def readVersionNumber (place : Place) : Except Fault (Nat × Place) :=
  let (digits, behind) := place.takeWhile CodePoint.isAsciiDigit
  if digits = [] then place.fail (.expectedDigit place.peek)
  else if Number.digitLimit < digits.length then .error (.scalar (.tooManyDigits digits.length))
  else .ok (Number.ofDigits digits, behind)

def readVersion (place : Place) : Except Fault (Directive × Place) := do
  let (major, behind) ← readVersionNumber place.skipSpaces
  if behind.peek = some '.' then
    let (minor, last) ← readVersionNumber behind.next
    if last.peek.all isSpaceOrBreak then return (.version major minor, last)
    last.fail (.expectedDigitOrSpace last.peek)
  else behind.fail (.expectedDigitOrPoint behind.peek)

def readHandleDeclaration (place : Place) : Except Fault (Directive × Place) := do
  let (handle, behind) ← readHandle place.skipSpaces
  if behind.peek = some ' ' then
    let (replacement, last) ← readUri behind.skipSpaces
    if last.peek.all isSpaceOrBreak then return (.tag handle replacement, last)
    last.fail (.expectedSpace last.peek)
  else behind.fail (.expectedSpace behind.peek)

/-- Reads a directive and what is left of its line. -/
def readDirective (place : Place) : Except Fault (Directive × Place) := do
  let start := place.next
  let (name, behind) := start.takeWhile isWordPart
  if name = [] then start.fail (.expectedWord start.peek)
  else if behind.peek.all isSpaceOrBreak then
    let (directive, last) ←
      if name = Text.ofString "YAML" then readVersion behind
      else if name = Text.ofString "TAG" then readHandleDeclaration behind
      else pure (.other name, behind.skipWhile fun code => !isBreak code)
    return (directive, ← skipLine last)
  else behind.fail (.expectedWord behind.peek)

end ConfigGraph.Yaml
