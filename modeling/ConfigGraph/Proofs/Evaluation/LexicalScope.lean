import ConfigGraph.Proofs.Evaluation.Lockstep
import ConfigGraph.Proofs.Evaluation.Shared

/-!
# Lexical scope

What an expression comes to depends on its scope only through the names that are free in it
(`sameOutcomes_of_seesSame`).  For a call that are the names that the function finds where it was
made, and for a `let` they are those of its body.  What was evaluated in between does not matter,
because in sound sessions evaluations come to what they come to afresh.
-/

namespace ConfigGraph.Evaluation

/-! ## Outcomes -/

/-- The evaluation of an expression that starts in a session comes to a result, if the depth
suffices. -/
def ComesTo (store : Store) (session : Session) (site : Site) (source : Source) (scope : Scope)
    (expr : Expr) (result : Except Failure Value) : Prop :=
  result ≠ .error (.fault .unending) ∧
    ∃ depth, (perform (ofExpr depth store site source scope expr) session).1 = result

/-- If one of two values is free of functions then they are the same but for marks of floats that
are no numbers, and equal if they have to be the same exactly. -/
def Same (exact : Prop) (value other : Value) : Prop :=
  value.FunctionFree ∨ other.FunctionFree → value.Matches other ∧ (exact → value = other)

/-- Two evaluations end in the same cases, and then fail alike or come to the same values. -/
def SameOutcomes (exact : Prop) (outcome other : Except Failure Value → Prop) : Prop :=
  ((∃ result, outcome result) ↔ ∃ result, other result) ∧
    ∀ result twin, outcome result → other twin → InAccord (Same exact) result twin

/-- Two scopes in which some names have the same values.  The code of all functions in these stands
in some documents. -/
abbrev SeesSame (documents : List Document) (names : Text → Prop) : Scope → Scope → Prop :=
  Scope.Agree (fun value other => value = other ∧ value.Rooted documents) names

/-- A call evaluates to a call of a function with some values. -/
structure Calls (store : Store) (session : Session) (site : Site) (source : Source) (scope : Scope)
    (callee : Expr) (arguments : List Expr) (function : Value) (values : List Value) : Prop where
  callee : ComesTo store session (site.step 0) source scope callee (.ok function)
  arguments : List.Forall₂ (fun argument value =>
    ComesTo store session (site.step (argument.2 + 2)) source scope argument.1 (.ok value))
    arguments.zipIdx values

theorem SameOutcomes.imp {exact weaker : Prop} {outcome other : Except Failure Value → Prop}
    (same : SameOutcomes exact outcome other) (implies : weaker → exact) :
    SameOutcomes weaker outcome other := by
  refine ⟨same.1, fun result twin comes twinComes => ?_⟩
  refine (same.2 result twin comes twinComes).imp fun areSame free => ?_
  exact ⟨(areSame free).1, fun exactly => (areSame free).2 (implies exactly)⟩

variable {store : Store} {session : Session} {site : Site} {source : Source} {scope : Scope}
  {expr : Expr} {span : Span} {result : Except Failure Value}

theorem perform_ofExpr_of_le {depth larger : Nat} (atLeast : depth ≤ larger)
    (ended : result ≠ .error (.fault .unending))
    (performed : (perform (ofExpr depth store site source scope expr) session).1 = result) :
    (perform (ofExpr larger store site source scope expr) session).1 = result := by
  rw [← performed] at ended ⊢
  rw [lasts_of_le (fun depth => lasts_ofExpr depth store site source scope expr) atLeast session
    ended]

theorem comesTo_iff_comes (sound : session.Sound store) :
    ComesTo store session site source scope expr result ↔
      Comes (fun depth => afresh depth store site source scope expr) session.active result := by
  constructor
  · rintro ⟨ended, depth, rfl⟩
    exact ((faithful_ofExpr store depth site source scope expr).agrees session sound).comes ended
  · rintro ⟨ended, depth, rfl⟩
    have agrees := (faithful_ofExpr store depth site source scope expr).agrees session sound
    exact ⟨ended, depth, agrees.ends ended⟩

theorem comesTo_identifier {name : Text} {value : Value}
    (found : Scope.value? scope name = some value) :
    ComesTo store session site source scope (.identifier span name) (.ok value) := by
  obtain ⟨⟨_, _⟩, isFound, rfl⟩ := Option.map_eq_some_iff.mp found
  refine ⟨nofun, 1, ?_⟩
  change (perform (lookup source span scope name) session).1 = _
  rw [lookup, isFound]
  rfl

/-! ## The names that are free -/

theorem same_of_akin {documents : List Document} {exact : Prop} {value other : Value}
    (areAkin : Value.Akin documents (fun mark twin => exact → mark = twin) value other) :
    Same exact value other := by
  intro free
  have without := areAkin.without_functions free
  refine ⟨without.mono fun _ _ _ => trivial, fun exactly => Value.eq_of_akin ?_⟩
  exact without.mono fun _ _ marked => marked exactly

theorem SeesSame.akin {documents : List Document} {marks : Origin → Origin → Prop}
    {names : Text → Prop} {otherScope : Scope}
    (seesSame : SeesSame documents names scope otherScope) :
    Value.ScopesAkin documents marks names scope otherScope := by
  intro name isName
  have both := seesSame name isName
  generalize Scope.value? scope name = value, Scope.value? otherScope name = other at both ⊢
  cases both with
  | none => exact .none
  | some same =>
      obtain ⟨rfl, rooted⟩ := same
      exact .some (.same rooted)

/-- Evaluations have the same outcomes if their results are the same at each depth. -/
theorem sameOutcomes_of_accord {exact : Prop} {otherSite : Site} {otherSource : Source}
    {otherScope : Scope} {other : Expr}
    (accord : ∀ depth, InAccord (Same exact)
      (perform (ofExpr depth store site source scope expr) session).1
      (perform (ofExpr depth store otherSite otherSource otherScope other) session).1) :
    SameOutcomes exact (ComesTo store session site source scope expr)
      (ComesTo store session otherSite otherSource otherScope other) := by
  refine ⟨⟨?_, ?_⟩, ?_⟩
  · rintro ⟨_, ended, depth, rfl⟩
    exact ⟨_, (accord depth).error_iff.not.mp ended, depth, rfl⟩
  · rintro ⟨_, ended, depth, rfl⟩
    exact ⟨_, (accord depth).error_iff.not.mpr ended, depth, rfl⟩
  · rintro result twin ⟨ended, depth, performed⟩ ⟨twinEnded, twinDepth, twinPerformed⟩
    -- Both evaluations come to their results at a depth that suffices for both.
    have both := accord (max depth twinDepth)
    rwa [perform_ofExpr_of_le (Nat.le_max_left _ _) ended performed,
      perform_ofExpr_of_le (Nat.le_max_right _ _) twinEnded twinPerformed] at both

/-- In a closed store whose documents compare nothing, an expression comes to the same in scopes
that give its free names the same values. -/
theorem sameOutcomes_of_seesSame (closed : store.Closed)
    (compareless : ∀ document ∈ store.documents, ∀ tree, document.content = .expr tree →
      tree.Avoids Expr.isComparison) (remembers : Remembers store.documents session)
    {otherSite : Site} {otherScope : Scope} (standsIn : StandsIn store.documents source expr)
    (seesSame : SeesSame store.documents expr.Free scope otherScope) :
    SameOutcomes (site = otherSite) (ComesTo store session site source scope expr)
      (ComesTo store session otherSite source otherScope expr) := by
  have paired : Paired (fun mark twin => site = otherSite → mark = twin) site otherSite :=
    fun way same => by rw [same]
  refine sameOutcomes_of_accord fun depth => ?_
  have stepped := inStep_ofExpr closed compareless depth paired standsIn seesSame.akin session
    remembers
  exact stepped.2.2.imp same_of_akin

/-! ## Calls and `let` -/

/-- What a level comes to is what the levels below give. -/
theorem comes_afresh_succ {active : List Text} :
    Comes (fun depth => afresh (depth + 1) store site source scope expr) active result ↔
      Comes (fun depth => afresh depth store site source scope expr) active result := by
  constructor
  · exact fun comes => comes.of_succ
  · rintro ⟨ended, _ | depth, same⟩
    · exact absurd same.symm ended
    · exact ⟨ended, depth, same⟩

/-- A call comes to what the body of the function comes to where the function was made. -/
theorem comesTo_call (sound : session.Sound store) {callee : Expr} {arguments : List Expr}
    {origin : Origin} {parameters : List Text} {body : Expr} {closure : Scope} {home : Source}
    {values : List Value}
    (calls : Calls store session site source scope callee arguments
      (.function origin parameters body closure home) values)
    (sameLength : values.length = parameters.length) :
    ComesTo store session site source scope (.call span callee arguments) result ↔
      ComesTo store session (site.step 1) home (bind parameters values closure) body result := by
  have sameNumber : arguments.length = parameters.length := by
    rw [← sameLength, ← calls.arguments.length_eq, List.length_zipIdx]
  let transforms (depth : Nat) (argument : Expr × Nat) : Evaluation Value :=
    afresh depth store (site.step (argument.2 + 2)) source scope argument.1
  have reliable (depth : Nat) : Reliable depth fun other =>
      arguments.zipIdx.mapM (transforms other) :=
    .mapM (fun argument => reliable_afresh depth store _ _ _ _) _
  have argumentsCome : Comes (fun depth => arguments.zipIdx.mapM (transforms depth))
      session.active (.ok values) :=
    .mapM (fun argument depth => reliable_afresh depth store _ _ _ _)
      (calls.arguments.imp fun argument value comes => (comesTo_iff_comes sound).mp comes)
  rw [comesTo_iff_comes sound, comesTo_iff_comes sound, ← comes_afresh_succ]
  refine Iff.trans (Comes.bind_iff (fun depth => reliable_afresh depth store _ _ _ _)
    (fun depth => ?_) ((comesTo_iff_comes sound).mp calls.callee)) ?_
  · simp only [sameNumber, ne_eq, not_true_eq_false, ↓reduceIte]
    exact (reliable depth).bind fun values => reliable_afresh depth store _ _ _ _
  · simp only [sameNumber, ne_eq, not_true_eq_false, ↓reduceIte]
    exact Comes.bind_iff reliable (fun depth => reliable_afresh depth store _ _ _ _) argumentsCome

/-- A `let` whose value is given comes to what its body comes to. -/
theorem comesTo_letIn (sound : session.Sound store) {name : Text} {value body : Expr}
    {given : Value} (gives : ComesTo store session (site.step 0) source scope value (.ok given)) :
    ComesTo store session site source scope (.letIn span name value body) result ↔
      ComesTo store session (site.step 1) source ((name, given) :: scope) body result := by
  rw [comesTo_iff_comes sound, comesTo_iff_comes sound, ← comes_afresh_succ]
  exact Comes.bind_iff (fun depth => reliable_afresh depth store _ _ _ _)
    (fun depth => reliable_afresh depth store _ _ _ _) ((comesTo_iff_comes sound).mp gives)

/-! ## Sessions -/

/-- Whatever is being evaluated, nothing that is remembered is wrong where nothing is. -/
theorem sound_during (store : Store) (active : List Text) : Session.Sound store ⟨[], active⟩ :=
  ⟨nofun, fun _ _ => rfl⟩

theorem InTurn.remembers (closed : store.Closed) {runs : List (Text × Except Failure Value)}
    {after : Session} (inTurn : InTurn store session runs after)
    (remembers : Remembers store.documents session) : Remembers store.documents after := by
  induction inTurn with
  | nil => exact remembers
  | @cons session middle after path result rest ends _ induction =>
      obtain ⟨_, depth, performed⟩ := ends
      refine induction ?_
      have kept := remembers_ofPath closed depth path remembers
      rwa [performed] at kept

end ConfigGraph.Evaluation
