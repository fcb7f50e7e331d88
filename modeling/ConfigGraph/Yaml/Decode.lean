import ConfigGraph.Yaml.Data
import ConfigGraph.Yaml.Event.Grammar
import ConfigGraph.Yaml.Token.Lexer

/-!
# Reading YAML

`Yaml.decode` reads the only document in a text; an empty text is null.  Only tags that stand for
plain data are known.
-/

namespace ConfigGraph.Yaml

/-- The code points that a document may hold. -/
def isAcceptable (code : CodePoint) : Bool :=
  code == '\t' || code == '\n' || code == '\r' || code.within 0x20 0x7e || code.value == 0x85 ||
    code.within 0xa0 0xd7ff || code.within 0xe000 0xfffd || code.within 0x10000 0x10ffff

/-- The value of the document in a text; the owner names the document. -/
def decode (owner text : Text) : Except Fault Value :=
  let acceptable := text.takeWhile isAcceptable
  match text.drop acceptable.length with
  | code :: _ => .error (.unacceptable code acceptable.length)
  | [] => do
      let composition ← Composition.ofEvents (events (tokens text))
      match composition.root with
      | none => return .null
      | some root => composition.nodes.value owner root

end ConfigGraph.Yaml
