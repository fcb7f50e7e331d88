import ConfigGraph.Document
import ConfigGraph.Host

/-!
# Proper errors

An error is proper if it belongs to a stage of a load and has all details that its message mentions.
All errors that a load makes itself are proper.
-/

namespace ConfigGraph

/-- An error of one of the stages, with all details that its message mentions. -/
structure LoadError.Proper (error : LoadError) : Prop where
  staged : error.kind ≠ .general
  complete : error.code.missing? error.details = none

theorem LoadError.proper_ofTexts {kind : ErrorKind} {code : ErrorCode}
    {details : List (Text × Text)} {path : Option Text} {range : Option Range}
    (staged : kind ≠ .general)
    (complete : code.missing? (details.map fun detail => (detail.1, .text detail.2)) = none) :
    (ofTexts kind code details path range).Proper :=
  ⟨staged, complete⟩

/-- A message ends with what it says apart from the location. -/
theorem LoadError.core_suffix_message (error : LoadError) : error.core <:+ error.message := by
  unfold message
  split
  · exact List.suffix_refl _
  · exact List.suffix_refl _
  · split
    · exact List.suffix_append _ _
    · exact List.suffix_append _ _

theorem LoadError.Proper.locate {error : LoadError} (proper : error.Proper) (path : Text)
    (range : Option Range) : (error.locate path range).Proper := by
  unfold LoadError.locate
  split
  · exact ⟨proper.staged, proper.complete⟩
  · exact proper

theorem Report.proper_toError (report : Report) (source : Source) (offset : Option Int) :
    (report.toError source offset).Proper := by
  cases report <;> exact LoadError.proper_ofTexts (by decide) rfl

/-- A fault of a document is a proper error, but for an integer with too many digits. -/
theorem SyntaxFault.toFailure_cases (source : Source) (fault : SyntaxFault) :
    (∃ error, fault.toFailure source = .error error ∧ error.Proper) ∨
      ∃ token, fault = .tooManyDigits token ∧
        fault.toFailure source = .fault (.numberToken token.lexeme.length) := by
  cases fault with
  | unexpected expected found => exact .inl ⟨_, rfl, Report.proper_toError _ _ _⟩
  | invalidCharacter offset character => exact .inl ⟨_, rfl, Report.proper_toError _ _ _⟩
  | invalidEscape token => exact .inl ⟨_, rfl, LoadError.proper_ofTexts (by decide) rfl⟩
  | tooManyDigits token => exact .inr ⟨token, rfl, rfl⟩

/-- Where a fault is. -/
def SyntaxFault.offset : SyntaxFault → Nat
  | unexpected _ found => found.start
  | invalidCharacter offset _ => offset
  | invalidEscape token | tooManyDigits token => token.start

/-- The error of a fault is where the fault is. -/
theorem SyntaxFault.location_of_toFailure {source : Source} {fault : SyntaxFault}
    {error : LoadError} (failed : fault.toFailure source = .error error) :
    error.kind = .parse ∧ error.path = some source.path ∧
      error.range = some (.point (positionAt source.text fault.offset)) := by
  have notBefore (offset : Nat) : ¬(offset : Int) < 0 := by omega
  cases fault with
  | unexpected expected found =>
      cases failed
      refine ⟨rfl, rfl, ?_⟩
      simp only [Report.toError, if_neg (notBefore _)]
      rfl
  | invalidCharacter offset character =>
      cases failed
      refine ⟨rfl, rfl, ?_⟩
      simp only [Report.toError, if_neg (notBefore _)]
      rfl
  | invalidEscape token =>
      cases failed
      exact ⟨rfl, rfl, rfl⟩
  | tooManyDigits token => cases failed

theorem proper_jsonError (source : Source) (fault : Json.Fault) : (jsonError source fault).Proper :=
  LoadError.proper_ofTexts (by decide) rfl

/-- A fault of a JSON document is a proper error, but for an integer with too many digits. -/
theorem jsonFailure_cases (source : Source) (fault : Json.Fault) :
    jsonFailure source fault = .error (jsonError source fault) ∨
      ∃ digits, fault.problem = .tooManyDigits digits ∧
        jsonFailure source fault = .fault (.scalar (.tooManyDigits digits)) := by
  unfold jsonFailure
  split
  case h_1 digits isProblem => exact .inr ⟨digits, isProblem, rfl⟩
  case h_2 => exact .inl rfl

theorem proper_yamlError (source : Source) (details : Text) (offset : Option Nat) :
    (yamlError source details offset).Proper :=
  LoadError.proper_ofTexts (by decide) rfl

theorem Value.Obstacle.proper_toError (obstacle : Value.Obstacle) : obstacle.toError.Proper := by
  cases obstacle <;> exact LoadError.proper_ofTexts (by decide) rfl

/-- A text in a format holds an integer with too many digits: the first fault in it is a number
token, or a number in JSON, that is too long. -/
inductive HoldsLongInteger (source : Source) : DocumentFormat → Fault → Prop where
  | token {token : Token} : parseExpr source.text = .error (.tooManyDigits token) →
      HoldsLongInteger source .cairn (.numberToken token.lexeme.length)
  | number {digits left : Nat} : Json.decode source.text = .error ⟨.tooManyDigits digits, left⟩ →
      HoldsLongInteger source .json (.scalar (.tooManyDigits digits))

/-- A document that cannot be read is a proper error, but for an integer with too many digits, and
for a scalar in YAML that is not what its tag promises. -/
theorem failure_of_parseDocument {source : Source} {format : DocumentFormat} {failure : Failure}
    (failed : parseDocument source format = .error failure) :
    (∃ error, failure = .error error ∧ error.Proper) ∨ failure = .fault .unending ∨
      (∃ fault, HoldsLongInteger source format fault ∧ failure = .fault fault) ∨
      ∃ fault, format = .yaml ∧ Yaml.decode source.path source.text = .error (.scalar fault) ∧
        failure = .fault (.scalar fault) := by
  cases format with
  | cairn =>
      simp only [parseDocument] at failed
      split at failed
      case h_1 => cases failed
      case h_2 fault parsed =>
        cases failed
        rcases fault.toFailure_cases source with ⟨error, isError, proper⟩ | ⟨token, rfl, isFault⟩
        · exact .inl ⟨error, isError, proper⟩
        · exact .inr (.inr (.inl ⟨_, .token parsed, isFault⟩))
  | json =>
      simp only [parseDocument] at failed
      split at failed
      case h_1 => cases failed
      case h_2 fault decoded =>
        cases failed
        rcases jsonFailure_cases source fault with isError | ⟨digits, isProblem, isFault⟩
        · exact .inl ⟨_, isError, proper_jsonError _ _⟩
        · obtain ⟨problem, left⟩ := fault
          cases isProblem
          exact .inr (.inr (.inl ⟨_, .number decoded, isFault⟩))
  | yaml =>
      simp only [parseDocument] at failed
      split at failed
      case h_1 => cases failed
      case h_2 fault decoded =>
        cases failed
        cases fault with
        | unacceptable code offset => exact .inl ⟨_, rfl, proper_yamlError _ _ _⟩
        | problem problem offset => exact .inl ⟨_, rfl, proper_yamlError _ _ _⟩
        | scalar fault => exact .inr (.inr (.inr ⟨fault, rfl, decoded, rfl⟩))
        | unending => exact .inr (.inl rfl)

/-- A document that holds such an integer is not read. -/
theorem HoldsLongInteger.parseDocument_eq {source : Source} {format : DocumentFormat}
    {fault : Fault} (holds : HoldsLongInteger source format fault) :
    parseDocument source format = .error (.fault fault) := by
  cases holds with
  | token parsed =>
      rw [parseDocument, parsed]
      rfl
  | number decoded =>
      rw [parseDocument, decoded]
      rfl

/-! ## Hosts -/

/-- A reply that is no improper error. -/
def Reply.Proper (reply : Reply) : Prop := ∀ error, reply = .refused error → error.Proper

/-- A host that refuses with proper errors only. -/
structure Host.Proper {σ : Type} (host : Host σ) : Prop where
  resolve : ∀ resolution state, (host.resolve resolution state).reply.Proper
  fetch : ∀ path state, (host.fetch path state).reply.Proper

end ConfigGraph
