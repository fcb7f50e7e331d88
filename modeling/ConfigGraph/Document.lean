import ConfigGraph.Json.Decode
import ConfigGraph.Parser.Report
import ConfigGraph.Value.Json
import ConfigGraph.Yaml.Decode

/-!
# Documents

A document is written in the configuration language, in JSON or in YAML; its path tells which.
Only documents in the configuration language hold expressions, the others are data as they are.
-/

namespace ConfigGraph

/-- The format of a document. -/
inductive DocumentFormat where
  | cairn | json | yaml
  deriving DecidableEq, Inhabited

def DocumentFormat.name : DocumentFormat → Text
  | cairn => "cairn"
  | json => "json"
  | yaml => "yaml"

/-- The endings of paths that stand for a format of their own, whatever their case. -/
def DocumentFormat.endings : List (Text × DocumentFormat) :=
  [(".json", json), (".yaml", yaml), (".yml", yaml)]

/-- The format of the document at a path. -/
def DocumentFormat.ofPath (path : Text) : DocumentFormat :=
  let lowered := path.toLower
  ((endings.find? fun ending => lowered.endsWith ending.1).map (·.2)).getD cairn

inductive Content where
  | expr (expr : Expr)
  | data (value : Value)
  deriving Inhabited

/-- The imports of a document in source order. -/
def Content.imports : Content → List Expr.ImportSite
  | .expr tree => tree.imports
  | .data _ => []

def jsonError (source : Source) (fault : Json.Fault) : LoadError :=
  LoadError.ofTexts .parse .invalidJson
    [("details", fault.problem.message), ("raw", fault.describe source.text)]
    (some source.path) (some (rangeAt source.text (fault.offset source.text)))

/-- The failure of a fault in a JSON document.  An integer with too many digits is no load error. -/
def jsonFailure (source : Source) (fault : Json.Fault) : Failure :=
  match fault.problem with
  | .tooManyDigits digits => .fault (.scalar (.tooManyDigits digits))
  | _ => .error (jsonError source fault)

/-- The load error of a fault at an offset of a YAML document, or of a fault in the whole of it. -/
def yamlError (source : Source) (details : Text) (offset : Option Nat) : LoadError :=
  LoadError.ofTexts .parse .invalidYaml [("details", details)] (some source.path)
    (offset.map fun offset => rangeAt source.text offset)

/-- The failure of a fault in a YAML document.  A scalar that does not hold what its tag promises is
no load error. -/
def yamlFailure (source : Source) : Yaml.Fault → Failure
  | .unacceptable code offset =>
      .error (yamlError source
        ("unacceptable character #x" ++ Text.padded 16 4 code.value ++
          ": special characters are not allowed\n  in \"<unicode string>\", position " ++
          Text.ofNat offset) none)
  | .problem problem offset => .error (yamlError source problem.message (some offset))
  | .scalar fault => .fault (.scalar fault)
  | .unending => .fault .unending

/-- Reads a document in a format. -/
def parseDocument (source : Source) (format : DocumentFormat) : Except Failure Content :=
  match format with
  | .cairn =>
      match parseExpr source.text with
      | .ok expr => .ok (.expr expr)
      | .error fault => .error (fault.toFailure source)
  | .json =>
      match Json.decode source.text with
      | .ok json => .ok (.data (.ofJson json))
      | .error fault => .error (jsonFailure source fault)
  | .yaml =>
      match Yaml.decode source.path source.text with
      | .ok value => .ok (.data value)
      | .error fault => .error (yamlFailure source fault)

end ConfigGraph
