import ConfigGraph.Command.Execution
import ConfigGraph.Proofs.Json.Ascii
import ConfigGraph.Proofs.Json.Draft
import ConfigGraph.Proofs.Json.RoundTrip
import ConfigGraph.Proofs.Load.Data

/-!
# What the command emits

A command that loads an input writes nothing unless the load succeeds and the system grants what it
asks for.  Then it emits the whole text of the data, unless an integer in them has too many digits,
and a JSON document with this text loads as the same data.
-/

namespace ConfigGraph.Command

/-- An execution emits a text: into the output file if there is one, whose directory must be there,
and to the standard output if there is none.  Nothing else is written to either. -/
def Emits (disk : Disk) (output : Option Text) (execution : Execution) (text : Text) : Prop :=
  match output with
  | none => execution.output = text ∧ execution.directories = [] ∧ execution.files = []
  | some path =>
      execution.output = [] ∧ execution.directories = [Path.parent (disk.locate path)] ∧
        execution.files = [(disk.locate path, text)]

/-- A line ends what is emitted to the standard output. -/
def ending (output : Option Text) : Text := if output.isNone then "\n" else []

/-- Every JSON document with a text loads as some data, whatever its host and its path. -/
def LoadsAs (text : Text) (json : Json) : Prop :=
  ∀ {σ : Type} (host : Host σ) (limits : Load.Limits) (path : Text) (state : σ),
    DocumentFormat.ofPath path = .json → 0 < limits.visits →
    (host.fetch path state).reply = .answer text →
    (Load.perform (Load.load limits host path) (.start state)).1 = .ok json

theorem keyed_of_load {σ : Type} {limits : Load.Limits} {host : Host σ} {entry : Text}
    {before : LoadState σ} {json : Json}
    (loaded : (Load.perform (Load.load limits host entry) before).1 = .ok json) : json.Keyed := by
  rw [Load.perform_load] at loaded
  obtain ⟨value, _, isPlain⟩ := Load.of_resultOf_eq_ok loaded
  exact Value.keyed_plain value json isPlain

theorem loadsAs_of_legible {json : Json} (legible : json.Legible) (output : Option Text) :
    LoadsAs (Json.encode json ++ ending output) json := by
  intro σ host limits path state isJson enough fetched
  have isEnding : ending output = [] ∨ ending output = [CodePoint.ofChar '\n'] := by
    cases output with
    | none => exact .inr rfl
    | some path => exact .inl rfl
  exact Load.load_json isJson fetched (Json.decode_encode legible isEnding) legible enough

variable {limits : Load.Limits} {disk : Disk} {input : Text}

/-- What a load of an input comes to. -/
def loaded (limits : Load.Limits) (disk : Disk) (input : Text) : Except Failure Json :=
  (Load.perform (Load.load limits (host disk input) (disk.locate input)) (.start .empty)).1

/-- Why the output file of a command cannot be written, if there is one and it cannot. -/
def refusal? (disk : Disk) (outlet : Outlet) (output : Option Text) : Option Text :=
  output.bind fun path => outlet.refusal? (disk.locate path)

theorem executeLoad_of_error (outlet : Outlet) (duration : Nat) (output : Option Text)
    {failure : Failure} (failed : loaded limits disk input = .error failure) :
    (executeLoad limits disk outlet duration input output).directories = [] ∧
      (executeLoad limits disk outlet duration input output).files = [] := by
  unfold loaded at failed
  unfold executeLoad
  rcases performed : Load.perform (Load.load limits (host disk input) (disk.locate input))
    (.start .empty) with ⟨result, state⟩
  rw [performed] at failed
  cases (show result = .error failure from failed)
  cases failure with
  | error error => exact ⟨rfl, rfl⟩
  | fault fault => exact ⟨rfl, rfl⟩

/-- An execution in which nothing has been written yet. -/
structure Blank (execution : Execution) : Prop where
  output : execution.output = []
  directories : execution.directories = []
  files : execution.files = []

/-- A load that succeeds goes on to its output. -/
theorem executeLoad_of_ok (outlet : Outlet) (duration : Nat) (output : Option Text) {json : Json}
    (succeeded : loaded limits disk input = .ok json) :
    ∃ base, Blank base ∧ executeLoad limits disk outlet duration input output =
      match output with
      | none => emit json base
      | some path => save outlet json (disk.locate path) input duration base := by
  unfold loaded at succeeded
  unfold executeLoad
  rcases performed : Load.perform (Load.load limits (host disk input) (disk.locate input))
    (.start .empty) with ⟨result, state⟩
  rw [performed] at succeeded
  cases (show result = .ok json from succeeded)
  refine ⟨⟨.ok 0, [], opening input ++ closing duration, [], [], state.log⟩, ⟨rfl, rfl, rfl⟩, ?_⟩
  cases output with
  | none => rfl
  | some path => rfl

/-- A command writes nothing, for a reason that the system gives. -/
structure Refused (execution : Execution) (reason : Text) : Prop where
  status : execution.status = .error (.refused reason)
  output : execution.output = []
  files : execution.files = []

theorem executeLoad_of_refusal {outlet : Outlet} (duration : Nat) {output : Option Text}
    {json : Json} {reason : Text} (succeeded : loaded limits disk input = .ok json)
    (isRefusal : refusal? disk outlet output = some reason) :
    Refused (executeLoad limits disk outlet duration input output) reason := by
  obtain ⟨base, blank, isExecution⟩ := executeLoad_of_ok outlet duration output succeeded
  rw [isExecution]
  cases output with
  | none => cases isRefusal
  | some path =>
      simp only [refusal?, Option.bind_some] at isRefusal
      dsimp only [save]
      rw [isRefusal]
      exact ⟨rfl, blank.output, blank.files⟩

/-- What a command emits of the value that it has loaded. -/
theorem executeLoad_of_granted {outlet : Outlet} (duration : Nat) {output : Option Text}
    {json : Json} (succeeded : loaded limits disk input = .ok json)
    (granted : refusal? disk outlet output = none) :
    (executeLoad limits disk outlet duration input output).status = statusOf (Json.draft json) ∧
      Emits disk output (executeLoad limits disk outlet duration input output)
        (Json.draft json ++ .ofText (ending output)).text := by
  obtain ⟨base, blank, isExecution⟩ := executeLoad_of_ok outlet duration output succeeded
  rw [isExecution]
  cases output with
  | none => exact ⟨rfl, rfl, blank.directories, blank.files⟩
  | some path =>
      have noEnding : ending (some path) = [] := rfl
      rw [noEnding, Json.Draft.append_ofText_nil]
      simp only [refusal?, Option.bind_some] at granted
      dsimp only [save]
      rw [granted]
      exact ⟨rfl, blank.output, rfl, rfl⟩

theorem text_draft_of_writable {json : Json} (writable : json.Writable) (ending : Text) :
    (Json.draft json ++ .ofText ending).text = Json.encode json ++ ending := by
  obtain ⟨isDraft, whole_iff⟩ := Json.of_draft json
  have whole := whole_iff.mpr writable
  rw [Json.Draft.text_append whole, isDraft.text_eq whole, Json.Draft.ofText]

theorem text_draft_of_not_writable {json : Json} (unwritable : ¬json.Writable) (ending : Text) :
    (Json.draft json ++ .ofText ending).text <+: Json.encode json ∧
      (Json.draft json ++ .ofText ending).text ≠ Json.encode json := by
  obtain ⟨isDraft, whole_iff⟩ := Json.of_draft json
  have part : (Json.draft json).whole = false := by
    rw [Bool.eq_false_iff]
    exact unwritable ∘ whole_iff.mp
  rw [Json.Draft.append_of_not_whole part]
  refine ⟨isDraft.starts, fun same => ?_⟩
  rw [isDraft.whole_iff.mpr same] at part
  cases part

/-- The output of the command reads back as the data that were loaded, and it is complete unless the
system or an integer stands in the way.

Let the arguments name an input, and perhaps an output.  If the load fails then no directory is made
and no file is written.  Otherwise the system may refuse the output file or its directory; then
nothing is written.  If it does not refuse, and no integer in the data has too many digits, then the
command succeeds, and what it emits is the whole text of the data, in ASCII.  Each JSON document with
this text loads as the data, with the fields of all objects in the same order, if no high surrogate
stands right in front of a low one in a string or a name, and if the floats in the data read back from
their texts.  If an integer has too many digits then the command breaks down when it has emitted a
part of the text. -/
theorem output_reads_back {dialect : Dialect} {arguments : List Text} {output : Option Text}
    {verbose : Bool} (isLoad : ofArguments dialect arguments = .load input output verbose)
    (limits : Load.Limits) (disk : Disk) (outlet : Outlet) (duration : Nat) {execution : Execution}
    (isExecution :
      (ofArguments dialect arguments).execute limits disk outlet duration = execution) :
    (∀ failure, loaded limits disk input = .error failure →
      execution.directories = [] ∧ execution.files = []) ∧
    ∀ json, loaded limits disk input = .ok json →
      (∀ reason, refusal? disk outlet output = some reason → Refused execution reason) ∧
      (refusal? disk outlet output = none →
        (∀ value ∈ json.integers, value.natAbs < Nat.pow 10 Number.digitLimit) →
        execution.status = .ok 0 ∧
        Emits disk output execution (Json.encode json ++ ending output) ∧
        Text.Ascii (Json.encode json ++ ending output) ∧
        ((∀ text ∈ json.texts, text.Unpaired) → (∀ value ∈ json.floats, Json.ReadsBack value) →
          LoadsAs (Json.encode json ++ ending output) json)) ∧
      (refusal? disk outlet output = none →
        (∃ value ∈ json.integers, Nat.pow 10 Number.digitLimit ≤ value.natAbs) →
        execution.status = .error .tooManyDigits ∧
        ∃ text, Emits disk output execution text ∧ text <+: Json.encode json ∧
          text ≠ Json.encode json) := by
  rw [isLoad] at isExecution
  subst isExecution
  constructor
  · intro failure failed
    exact executeLoad_of_error outlet duration output failed
  · intro json succeeded
    refine ⟨?_, ?_, ?_⟩
    · intro reason isRefusal
      exact executeLoad_of_refusal duration succeeded isRefusal
    · intro granted short
      have writable : json.Writable := Json.writable_iff.mpr short
      obtain ⟨status, emits⟩ := executeLoad_of_granted duration succeeded granted
      rw [text_draft_of_writable writable] at emits
      rw [statusOf, if_pos ((Json.of_draft json).2.mpr writable)] at status
      refine ⟨status, emits, (Json.ascii_encodeAt 0 json).append ?_, fun unpaired readsBack => ?_⟩
      · rw [ending]
        split <;> decide
      · exact loadsAs_of_legible ⟨keyed_of_load succeeded, unpaired, writable, readsBack⟩ output
    · rintro granted ⟨value, member, long⟩
      have unwritable : ¬json.Writable := fun writable =>
        Nat.not_lt_of_ge long (Json.writable_iff.mp writable value member)
      obtain ⟨status, emits⟩ := executeLoad_of_granted duration succeeded granted
      obtain ⟨starts, differs⟩ := text_draft_of_not_writable unwritable (ending output)
      rw [statusOf, if_neg (unwritable ∘ (Json.of_draft json).2.mp)] at status
      exact ⟨status, _, emits, starts, differs⟩

/-- A file with a float, an escape of half a pair of surrogates, and empty containers. -/
def mixedDisk : Disk where
  files := [("/work/a.cairn", .bytes
    ("\x7b b = [0.1, \"\\ud83d\", \x7b\x7d], a = -20 \x7d".toList.map fun character =>
      UInt8.ofNat character.toNat))]
  directory := "/work"

theorem output_reads_back_mixed :
    ∃ json, loaded ⟨10, 10⟩ mixedDisk "a.cairn" = .ok json ∧ json.floats.length = 1 ∧
      Emits mixedDisk (some "out/a.json")
        ((ofArguments .later ["a.cairn", "-o", "out/a.json"]).execute ⟨10, 10⟩ mixedDisk .granting 0)
        (Json.encode json ++ ending (some (.ofString "out/a.json"))) ∧
      LoadsAs (Json.encode json ++ ending (some (.ofString "out/a.json"))) json := by
  have legible : (match loaded ⟨10, 10⟩ mixedDisk "a.cairn" with
      | .ok json => decide (json.floats.length = 1 ∧ (∀ text ∈ json.texts, text.Unpaired) ∧
          (∀ value ∈ json.floats, Json.ReadsBack value) ∧ json.Writable)
      | .error _ => false) = true := by
    decide +kernel
  split at legible
  case h_1 json succeeded =>
    obtain ⟨single, unpaired, readsBack, writable⟩ := of_decide_eq_true legible
    have isLoad : ofArguments .later ["a.cairn", "-o", "out/a.json"] =
        .load "a.cairn" (some "out/a.json") false := by
      decide
    obtain ⟨_, whole, _⟩ :=
      (output_reads_back isLoad ⟨10, 10⟩ mixedDisk .granting 0 rfl).2 json succeeded
    obtain ⟨_, emits, _, loads⟩ := whole rfl (Json.writable_iff.mp writable)
    exact ⟨json, succeeded, single, emits, loads unpaired readsBack⟩
  case h_2 => cases legible

/-- A file whose value is a row of one and a power of ten with too many digits. -/
def powerDisk : Disk where
  files := [("/work/a.cairn", .bytes
    (("let a = 10000000000 in let b = a * a in let c = b * b in let d = c * c in " ++
      "let e = d * d in let f = e * e in let g = f * f in let h = g * g in let i = h * h in " ++
      "let j = i * i in [1, j]").toList.map fun character => UInt8.ofNat character.toNat))]
  directory := "/work"

/-- A load that succeeds whose value is not emitted as a whole. -/
theorem power_not_emitted :
    ∃ json, loaded ⟨10, 100⟩ powerDisk "a.cairn" = .ok json ∧
      ¬Emits powerDisk none
        ((ofArguments .later ["a.cairn"]).execute ⟨10, 100⟩ powerDisk .granting 0)
        (Json.encode json ++ ending none) := by
  have isPower : (match loaded ⟨10, 100⟩ powerDisk "a.cairn" with
      | .ok json => decide (¬json.Writable)
      | .error _ => false) = true := by
    decide +kernel
  split at isPower
  case h_1 json succeeded =>
    have isLoad : ofArguments .later ["a.cairn"] = .load "a.cairn" none false := by decide
    refine ⟨json, succeeded, ?_⟩
    rw [isLoad]
    rintro ⟨whole, _⟩
    have granted : refusal? powerDisk .granting none = none := rfl
    obtain ⟨_, part, _⟩ := executeLoad_of_granted 0 succeeded granted
    obtain ⟨starts, _⟩ := text_draft_of_not_writable (of_decide_eq_true isPower) (ending none)
    -- The start of the text is shorter than the text with the end of a line.
    have same : Json.encode json ++ ending none =
        (Json.draft json ++ .ofText (ending none)).text := whole.symm.trans part
    have long := starts.length_le
    rw [← same, List.length_append] at long
    exact absurd long (Nat.not_le_of_gt (Nat.lt_add_of_pos_right (by decide)))
  case h_2 => cases isPower

end ConfigGraph.Command
