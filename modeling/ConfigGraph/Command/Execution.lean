import ConfigGraph.Command.Arguments
import ConfigGraph.Host.FileSystem
import ConfigGraph.Json.Encode
import ConfigGraph.Loading

/-!
# What the command does

`Command.execute` says what a command writes to the standard streams and to files, which directories
it needs for them, and how it ends, for the files of a disk and for what the system grants.  Nothing
is written when the load fails.  `Command.inquiries` lists the paths whose files a command asks for.
-/

namespace ConfigGraph

namespace Style

/-- The control sequence that sets or resets the colour of a terminal. -/
def control (parameters : Text) : Text := "\x1b[" ++ parameters ++ "m"

def paint (colour text : Text) : Text := control colour ++ text ++ control "0"

def red : Text := "91"

def green : Text := "92"

def cyan : Text := "96"

end Style

/-- What the system says to requests of a command that writes: why it refuses, if it does. -/
structure Outlet where
  /-- Makes a directory with those above it, unless it is there. -/
  makeDirectory : Text → Option Text
  /-- Opens a file to be written from its start. -/
  openFile : Text → Option Text

namespace Outlet

/-- The system grants everything. -/
def granting : Outlet := ⟨fun _ => none, fun _ => none⟩

/-- Why a file cannot be written, with the directory that it needs, if it cannot. -/
def refusal? (outlet : Outlet) (path : Text) : Option Text :=
  (outlet.makeDirectory (Path.parent path)).or (outlet.openFile path)

end Outlet

/-- Why a command breaks down. -/
inductive Breakdown where
  /-- The load breaks down. -/
  | load (fault : Fault)
  /-- An integer of the value has more digits than are written. -/
  | tooManyDigits
  /-- The system refuses a directory or a file. -/
  | refused (reason : Text)

/-- What a command does. -/
structure Execution where
  /-- The exit code, or why the command breaks down. -/
  status : Except Breakdown Nat
  output : Text
  errors : Text
  /-- The directories that are asked for. -/
  directories : List Text
  /-- The files that are written, with their texts. -/
  files : List (Text × Text)
  log : List LogEntry

namespace Command

def usage : Text := "usage: cairn [-h] [-o OUTPUT_FILE] [-v] [--lsp] [input_file]\n"

/-- A number of ten-thousandths of a second in seconds. -/
def seconds (duration : Nat) : Text :=
  Text.ofNat (duration / 10000) ++ "." ++ Text.padded 10 4 (duration % 10000)

/-- The line with which a load begins. -/
def opening (input : Text) : Text := "--- Loading " ++ input ++ " ---\n"

/-- The line with which a load ends, whatever comes of it. -/
def closing (duration : Nat) : Text :=
  Style.paint Style.cyan ("--- Total Execution Time: " ++ seconds duration ++ " seconds ---") ++
    "\n"

def complaint (error : LoadError) : Text :=
  "\n" ++ Style.paint Style.red ("--- LOAD ERROR ---\n" ++ error.message) ++ "\n"

def success (path : Text) : Text :=
  Style.paint Style.green "--- Load Successful ---" ++ "\nValue written to " ++ path ++ "\n"

/-- The host of a command that loads an input: imports are seen from the directory of the input. -/
def host (disk : Disk) (input : Text) : Host Findings :=
  .fileSystem disk (disk.locate (Path.parent (disk.locate input)))

/-- How a command ends that has written what it could of a value. -/
def statusOf (draft : Json.Draft) : Except Breakdown Nat :=
  if draft.whole then .ok 0 else .error .tooManyDigits

/-- Writes a value to the standard output, with the end of a line behind it. -/
def emit (json : Json) (base : Execution) : Execution :=
  let draft := Json.draft json
  { base with
    status := statusOf draft
    output := (draft ++ .ofText "\n").text }

/-- Writes a value to a file, for which a directory must be there. -/
def save (outlet : Outlet) (json : Json) (path : Text) (input : Text) (duration : Nat)
    (base : Execution) : Execution :=
  let asked := { base with directories := [Path.parent path] }
  match outlet.refusal? path with
  | some reason => { asked with status := .error (.refused reason) }
  | none =>
      let draft := Json.draft json
      { asked with
        status := statusOf draft
        errors :=
          if draft.whole then opening input ++ success path ++ closing duration else asked.errors
        files := [(path, draft.text)] }

/-- What a load of an input does.  The duration is in ten-thousandths of a second. -/
def executeLoad (limits : Load.Limits) (disk : Disk) (outlet : Outlet) (duration : Nat)
    (input : Text) (output : Option Text) : Execution :=
  let (result, state) :=
    (Load.load limits (host disk input) (disk.locate input)).perform (.start .empty)
  let base : Execution := ⟨.ok 0, [], opening input ++ closing duration, [], [], state.log⟩
  match result, output with
  | .ok json, none => emit json base
  | .ok json, some output => save outlet json (disk.locate output) input duration base
  | .error (.error error), _ =>
      { base with
        status := .ok 1
        errors := opening input ++ complaint error ++ closing duration }
  | .error (.fault fault), _ => { base with status := .error (.load fault) }

/-- What a command does.  The language server does nothing of its own accord. -/
def execute (limits : Load.Limits) (disk : Disk) (outlet : Outlet) (duration : Nat) :
    Command → Execution
  | help => ⟨.ok 0, usage, [], [], [], []⟩
  | refused => ⟨.ok 2, [], usage, [], [], []⟩
  | serve => ⟨.ok 0, [], [], [], [], []⟩
  | load input output _ => executeLoad limits disk outlet duration input output

/-- The paths whose files a command asks for. -/
def inquiries (limits : Load.Limits) (disk : Disk) : Command → List Text
  | load input _ _ =>
      let host := host disk input
      let (_, state) :=
        (Load.load limits host.recorded (disk.locate input)).perform (.start (.empty, []))
      state.host.2.filterMap fun
        | .fetch path => some path
        | .resolve resolution =>
            (Host.target disk (Path.parent (disk.locate input)) resolution).toOption
        | .report _ => none
  | _ => []

end Command

end ConfigGraph
