import ConfigGraph.Command.Execution

/-!
# The command

Reads the files that a load asks for, and does what `Command.execute` says.
-/

namespace ConfigGraph

/-- The paths that have been looked at, with what is there, if anything. -/
abbrev Survey := List (Text × Option File)

/-- The disk of the files that have been found. -/
def Survey.disk (survey : Survey) (directory : Text) : Disk where
  files := survey.filterMap fun (path, file) => file.map (path, ·)
  directory := directory

def lookAt (path : Text) : IO (Option File) := do
  try
    return some (.bytes (← IO.FS.readBinFile path.toString).toList)
  catch
    | .noFileOrDirectory .. | .inappropriateType .. => return none
    | _ => return some .unreadable

/-- Looks at the paths that a command asks for, until it asks for no others. -/
partial def completeSurvey (limits : Load.Limits) (directory : Text) (command : Command)
    (survey : Survey) : IO Survey := do
  let asked := command.inquiries limits (survey.disk directory)
  match asked.find? fun path => !survey.any fun entry => entry.1 == path with
  | none => return survey
  | some path =>
      completeSurvey limits directory command ((path, ← lookAt path) :: survey)

/-- Does something, or says why the system refuses it. -/
def attempt (action : IO Unit) : IO (Option Text) := do
  try
    action
    return none
  catch error => return some (.ofString (toString error))

/-- Makes the directories and opens the files of an execution, as far as the system grants them. -/
def requestOutlet (execution : Execution) : IO Outlet := do
  for directory in execution.directories do
    if let some reason ← attempt (IO.FS.createDirAll directory.toString) then
      return { Outlet.granting with makeDirectory := fun _ => some reason }
  for (path, _) in execution.files do
    if let some reason ← attempt (IO.FS.writeFile path.toString "") then
      return { Outlet.granting with openFile := fun _ => some reason }
  return .granting

/-- Why a command breaks down, in words. -/
def Breakdown.message : Breakdown → String
  | .load _ => "the load broke down"
  | .tooManyDigits => "an integer has too many digits to be written"
  | .refused reason => reason.toString

/-- Writes what an execution says, and gives the exit code. -/
def perform (execution : Execution) : IO UInt32 := do
  for (path, text) in execution.files do
    IO.FS.writeFile path.toString text.toString
  IO.print execution.output.toString
  IO.eprint execution.errors.toString
  match execution.status with
  | .ok code => return UInt32.ofNat code
  | .error breakdown => throw (IO.userError breakdown.message)

/-- Whether the log of a command is shown. -/
def Command.showsLog : Command → Bool
  | load _ _ verbose => verbose
  | _ => false

def runCommand (arguments : List String) : IO UInt32 := do
  let command := Command.ofArguments .later (arguments.map Text.ofString)
  let limits : Load.Limits := ⟨1000000, 10000⟩
  let directory := Text.ofString (← IO.currentDir).toString
  let start ← IO.monoNanosNow
  let disk := (← completeSurvey limits directory command []).disk directory
  let stop ← IO.monoNanosNow
  let duration := (stop - start) / 100000
  let outlet ← requestOutlet (command.execute limits disk .granting duration)
  let execution := command.execute limits disk outlet duration
  if command.showsLog then
    for entry in execution.log do
      IO.eprintln entry.message.toString
  perform execution

end ConfigGraph

def main (arguments : List String) : IO UInt32 := ConfigGraph.runCommand arguments
