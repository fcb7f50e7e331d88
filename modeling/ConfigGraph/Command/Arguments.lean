import ConfigGraph.Text.DecimalDigit

/-!
# Arguments of the command

The command loads the document at a path and writes its value to a file or to the standard output.
`Command.ofArguments` reads the words of a command line.  Options may stand anywhere before a word of
two hyphens, by letter or by name; letters may be put together, names may be cut short as long as
they stay unique, and a value may stand in the word of its option or in the next one.

Two dialects of command lines are about: they differ in letters that are put together and in the value
of two hyphens.
-/

namespace ConfigGraph

/-- The dialects of command lines. -/
inductive Dialect where
  /-- Letters put together must all stand for options.  An equals sign counts only behind the first
  of them, and two hyphens in the word of an option are an empty value. -/
  | earlier
  /-- Letters put together are options up to one that stands for none.  An equals sign may stand
  behind each that takes a value, and two hyphens are a value. -/
  | later
  deriving DecidableEq

/-- The options of the command. -/
inductive Switch where
  | help | output | verbose | languageServer
  deriving DecidableEq

namespace Switch

def all : List Switch := [help, output, verbose, languageServer]

def name : Switch → Text
  | help => "--help"
  | output => "--output"
  | verbose => "--verbose"
  | languageServer => "--lsp"

def letter? : Switch → Option CodePoint
  | help => some 'h'
  | output => some 'o'
  | verbose => some 'v'
  | languageServer => none

def ofLetter? (letter : CodePoint) : Option Switch :=
  all.find? fun switch => switch.letter? == some letter

/-- Whether an option takes a value. -/
def takesValue : Switch → Bool
  | output => true
  | _ => false

end Switch

/-- What follows the options of a word. -/
inductive WordEnd where
  | nothing
  /-- The value of the last option. -/
  | value (text : Text)
  /-- The value of the last option is the next word. -/
  | nextWord
  /-- Letters that stand for no option. -/
  | surplus
  deriving DecidableEq

/-- A word of a command line. -/
inductive Word where
  | plain (text : Text)
  /-- Two hyphens, behind which all words are plain. -/
  | separator
  | options (switches : List Switch) (rest : WordEnd)
  /-- An option with a value that it does not take, or letters one of which stands for no option. -/
  | malformed
  /-- An option that there is not. -/
  | unknown
  deriving DecidableEq

namespace Word

def hyphen : CodePoint := '-'

def equals : CodePoint := '='

/-- Reads what stands behind the letter of an option: its value, or further letters.  Nothing if a
letter stands for no option. -/
def readLetters? (switch : Switch) : Text → Option (List Switch × WordEnd)
  | [] => some ([switch], if switch.takesValue then .nextWord else .nothing)
  | code :: rest =>
      if switch.takesValue then some ([switch], .value (code :: rest))
      else do
        let (switches, behind) ← readLetters? (← Switch.ofLetter? code) rest
        return (switch :: switches, behind)

/-- Reads what stands behind the first letter of a word.  An equals sign may stand there, if
something is behind it that the option takes. -/
def readFirstLetter? (switch : Switch) (behind : Text) : Option (List Switch × WordEnd) :=
  if behind.head? = some equals then
    match behind.tail, switch.takesValue with
    | value, true => some ([switch], .value value)
    | [], false => none
    | letters, false => readLetters? switch letters
  else readLetters? switch behind

/-- Reads what stands behind the letter of an option in the later dialect.  Nothing if an option that
takes no value has an equals sign or a hyphen behind it. -/
def readLaterLetters? (switch : Switch) : Text → Option (List Switch × WordEnd)
  | [] => some ([switch], if switch.takesValue then .nextWord else .nothing)
  | code :: rest =>
      if switch.takesValue then
        some ([switch], .value (if code = equals then rest else code :: rest))
      else if code = equals ∨ code = hyphen then none
      else
        match Switch.ofLetter? code with
        | none => some ([switch], .surplus)
        | some other => do
            let (switches, behind) ← readLaterLetters? other rest
            return (switch :: switches, behind)

/-- Reads the letters of a word behind the hyphen and the first of them. -/
def readLettersIn? (dialect : Dialect) (switch : Switch) (behind : Text) :
    Option (List Switch × WordEnd) :=
  match dialect with
  | .earlier => readFirstLetter? switch behind
  | .later => readLaterLetters? switch behind

/-- An option by its name, with the value that stands behind an equals sign. -/
def ofName (switch : Switch) (value : Option Text) : Word :=
  match switch.takesValue, value with
  | true, some value => .options [switch] (.value value)
  | true, none => .options [switch] .nextWord
  | false, some _ => .malformed
  | false, none => .options [switch] .nothing

/-- Whether a text is a hyphen and a number in decimal.  A line feed may follow. -/
def isNegativeNumber (text : Text) : Bool :=
  let isDigit := CodePoint.isDecimalDigit
  let number := if text.getLast? = some ('\n' : CodePoint) then text.dropLast else text
  match number with
  | [] => false
  | first :: digits =>
      let behind := digits.dropWhile isDigit
      first == hyphen &&
        match behind with
        | [] => digits != []
        | point :: fraction =>
            point == ('.' : CodePoint) && fraction != [] && fraction.all isDigit

/-- A word that starts with a hyphen, but with no option.  Negative numbers and texts with spaces
are no options. -/
def ofOther (text : Text) : Word :=
  if isNegativeNumber text || text.contains (' ' : CodePoint) then .plain text else .unknown

/-- A word before the separator.  Nothing if it could be one of several options. -/
def ofText? (dialect : Dialect) (text : Text) : Option Word :=
  match text with
  | first :: second :: rest =>
      if first ≠ hyphen then some (.plain text)
      else if second = hyphen then
        let name := text.takeWhile (· != equals)
        let value := (text.dropWhile (· != equals)).tail?
        match Switch.all.filter fun switch => switch.name.startsWith name with
        | [] => some (ofOther text)
        | [switch] => some (ofName switch value)
        | _ => none
      else
        match Switch.ofLetter? second with
        | none => some (ofOther text)
        | some switch =>
            match readLettersIn? dialect switch rest with
            | none => some .malformed
            | some (switches, behind) => some (.options switches behind)
  | _ => some (.plain text)

/-- The words of a command line.  Nothing if one of them could be one of several options. -/
def ofTexts? (dialect : Dialect) : List Text → Option (List Word)
  | [] => some []
  | text :: texts =>
      if text = [hyphen, hyphen] then some (.separator :: texts.map .plain)
      else do
        let word ← ofText? dialect text
        let words ← ofTexts? dialect texts
        return word :: words

end Word

/-- What a command line asks for. -/
inductive Command where
  | help
  /-- The command line is none of the command. -/
  | refused
  | serve
  | load (input : Text) (output : Option Text) (verbose : Bool)
  deriving DecidableEq

/-- What has been read of a command line. -/
structure Reading where
  input : Option Text
  output : Option Text
  verbose : Bool
  languageServer : Bool
  /-- Whether an option stands behind the input. -/
  passedInput : Bool
  /-- Whether there are words that the command has no use for. -/
  surplus : Bool

namespace Reading

/-- Nothing read yet. -/
def start : Reading := ⟨none, none, false, false, false, false⟩

/-- Takes a plain word: the first is the input. -/
def takePlain (reading : Reading) (text : Text) : Reading :=
  match reading.input with
  | none => { reading with input := some text }
  | some _ => { reading with surplus := true }

/-- Takes the separator.  It has no use behind an option that is behind the input. -/
def takeSeparator (reading : Reading) : Reading :=
  { reading with surplus := reading.surplus || reading.passedInput }

/-- A value that stands in the word of its option. -/
def ownValue (dialect : Dialect) (text : Text) : Text :=
  if dialect = .earlier ∧ text = [Word.hyphen, Word.hyphen] then [] else text

/-- Takes the options of a word, and the value of the last. -/
def takeOptions (reading : Reading) (switches : List Switch) (value : Option Text) : Reading :=
  { reading with
    output := value.or reading.output
    verbose := reading.verbose || switches.contains .verbose
    languageServer := reading.languageServer || switches.contains .languageServer
    passedInput := reading.passedInput || reading.input.isSome }

/-- What has been read asks for.  An empty input is none, and so is an empty output. -/
def command (reading : Reading) : Command :=
  if reading.surplus then .refused
  else if reading.languageServer then .serve
  else
    match reading.input with
    | none | some [] => .refused
    | some input => .load input (reading.output.filter (· != [])) reading.verbose

/-- Reads the words that are left.  A request for help counts as soon as its word is read. -/
def read (dialect : Dialect) (reading : Reading) : List Word → Command
  | [] => reading.command
  | .plain text :: words => read dialect (reading.takePlain text) words
  | .separator :: words => read dialect reading.takeSeparator words
  | .malformed :: _ => .refused
  | .unknown :: words =>
      read dialect { reading.takeOptions [] none with surplus := true } words
  | .options switches .nextWord :: .plain value :: words =>
      if switches.contains .help then .help
      else read dialect (reading.takeOptions switches (some value)) words
  | .options _ .nextWord :: _ => .refused
  | .options switches (.value value) :: words =>
      if switches.contains .help then .help
      else read dialect (reading.takeOptions switches (some (ownValue dialect value))) words
  | .options switches .nothing :: words =>
      if switches.contains .help then .help
      else read dialect (reading.takeOptions switches none) words
  | .options switches .surplus :: words =>
      if switches.contains .help then .help
      else read dialect { reading.takeOptions switches none with surplus := true } words

end Reading

/-- What the arguments of a command line ask for. -/
def Command.ofArguments (dialect : Dialect) (arguments : List Text) : Command :=
  match Word.ofTexts? dialect arguments with
  | some words => Reading.start.read dialect words
  | none => .refused

end ConfigGraph
