import ConfigGraph.Proofs.Evaluation.Afresh

/-!
# Evaluations that share a session

A session can be used for any number of evaluations.  What it remembers are values that documents
come to afresh, no matter which documents are being evaluated meanwhile, as long as none of these
is remembered (`Session.Sound`).  An evaluation in such a session comes to what it comes to afresh
(`faithful_ofPath`), and leaves such a session behind.  So evaluations one after another each come
to what they come to in a session of their own.
-/

namespace ConfigGraph

/-! ## Sessions -/

namespace Session

/-- The session remembers the values of none of some documents. -/
def Lacks (session : Session) (paths : List Text) : Prop :=
  ∀ path ∈ paths, session.value? path = none

/-- The values that a session remembers are those to which the documents come afresh while others
are being evaluated, and none of those that are being evaluated is remembered. -/
structure Sound (store : Store) (session : Session) : Prop where
  truthful : ∀ path value, session.value? path = some value → ∀ active, session.Lacks active →
    Evaluation.Comes (fun depth => Evaluation.pathAfresh depth store path) active (.ok value)
  apart : session.Lacks session.active

/-- A session goes on to another one, in which the same documents are being evaluated and no value
is forgotten. -/
structure Continues (store : Store) (session after : Session) : Prop where
  sound : after.Sound store
  active : after.active = session.active
  lacks : ∀ paths, after.Lacks paths → session.Lacks paths

variable {store : Store} {session : Session}

theorem sound_start (store : Store) : Session.start.Sound store :=
  ⟨nofun, List.forall_mem_nil _⟩

theorem Sound.continues (sound : session.Sound store) : session.Continues store session :=
  ⟨sound, rfl, fun _ lacks => lacks⟩

theorem Continues.trans {middle after : Session} (first : session.Continues store middle)
    (second : middle.Continues store after) : session.Continues store after :=
  ⟨second.sound, second.active.trans first.active,
    fun paths lacks => first.lacks paths (second.lacks paths lacks)⟩

theorem value?_remember (session : Session) (path other : Text) (value : Value) :
    (session.remember path value).value? other =
      if path = other then some value else session.value? other := by
  unfold remember value?
  rw [List.find?_cons]
  split <;> rename_i same
  · simp only [decide_eq_true_eq] at same
    simp [same]
  · simp only [decide_eq_false_iff_not] at same
    simp [same]

theorem lacks_remember {path : Text} {value : Value} {paths : List Text} :
    (session.remember path value).Lacks paths ↔ path ∉ paths ∧ session.Lacks paths := by
  unfold Lacks
  constructor
  · intro lacks
    constructor
    · intro member
      have same := lacks path member
      rw [value?_remember, if_pos rfl] at same
      cases same
    · intro other member
      have same := lacks other member
      rw [value?_remember] at same
      split at same
      · cases same
      · exact same
  · rintro ⟨notMember, lacks⟩ other member
    rw [value?_remember, if_neg]
    · exact lacks other member
    · rintro rfl
      exact notMember member

/-- A document that is not remembered can be evaluated. -/
theorem Sound.enter (sound : session.Sound store) {path : Text}
    (new : session.value? path = none) : (session.enter path).Sound store :=
  ⟨sound.truthful, List.forall_mem_cons.mpr ⟨new, sound.apart⟩⟩

/-- What goes on while a document is evaluated goes on behind it. -/
theorem Continues.leave {path : Text} {after : Session}
    (continues : (session.enter path).Continues store after) (new : path ∉ session.active) :
    session.Continues store (after.leave path) := by
  have isActive : (after.leave path).active = session.active := by
    unfold Session.leave
    rw [continues.active, enter, List.filter_cons_of_neg (by simp), List.filter_eq_self]
    intro other member
    simp only [bne_iff_ne, ne_eq]
    rintro rfl
    exact new member
  refine ⟨⟨continues.sound.truthful, ?_⟩, isActive, continues.lacks⟩
  rw [isActive]
  intro other member
  apply continues.sound.apart other
  rw [continues.active]
  exact List.mem_cons_of_mem path member

/-- The value of a document can be remembered if the document comes to it afresh. -/
theorem Continues.remember {path : Text} {value : Value} {after : Session}
    (continues : session.Continues store after) (new : path ∉ session.active)
    (truthful : ∀ active, (after.remember path value).Lacks active →
      Evaluation.Comes (fun depth => Evaluation.pathAfresh depth store path) active (.ok value)) :
    session.Continues store (after.remember path value) := by
  refine ⟨⟨?_, ?_⟩, continues.active, fun paths lacks => ?_⟩
  · intro other given remembered active lacks
    rw [value?_remember] at remembered
    split at remembered
    case isTrue same =>
      cases remembered
      subst same
      exact truthful active lacks
    case isFalse =>
      exact continues.sound.truthful other given remembered active (lacks_remember.mp lacks).2
  · refine lacks_remember.mpr ⟨?_, continues.sound.apart⟩
    rw [← continues.active] at new
    exact new
  · exact continues.lacks paths (lacks_remember.mp lacks).2

end Session

namespace Evaluation

variable {α β : Type} {store : Store} {depth : Nat}

/-! ## Agreement with evaluation afresh -/

/-- An outcome in a session is that of parts afresh: it continues the session, a value is what they
come to even while other documents are being evaluated, a failure is what they come to, and it
needs no more depth than they do. -/
structure Agrees (store : Store) (depth : Nat) (parts : Nat → Evaluation α) (session : Session)
    (outcome : Except Failure α × Session) : Prop where
  continues : session.Continues store outcome.2
  value : ∀ value, outcome.1 = .ok value → ∀ active, outcome.2.Lacks active →
    Comes parts active (.ok value)
  failure : ∀ failure, outcome.1 = .error failure → failure ≠ .fault .unending →
    Comes parts session.active (.error failure)
  ends : (perform (parts depth) ⟨[], session.active⟩).1 ≠ .error (.fault .unending) →
    outcome.1 = (perform (parts depth) ⟨[], session.active⟩).1

section Outcomes

variable {parts : Nat → Evaluation α} {session after : Session}

theorem Agrees.of_value {value : α} (continues : session.Continues store after)
    (comes : ∀ active, after.Lacks active → Comes parts active (.ok value))
    (ends : (perform (parts depth) ⟨[], session.active⟩).1 ≠ .error (.fault .unending) →
      .ok value = (perform (parts depth) ⟨[], session.active⟩).1) :
    Agrees store depth parts session (.ok value, after) := by
  refine ⟨continues, ?_, ?_, ends⟩
  · rintro _ ⟨⟩
    exact comes
  · rintro _ ⟨⟩

theorem Agrees.of_failure {failure : Failure} (continues : session.Continues store after)
    (comes : failure ≠ .fault .unending → Comes parts session.active (.error failure))
    (ends : (perform (parts depth) ⟨[], session.active⟩).1 ≠ .error (.fault .unending) →
      .error failure = (perform (parts depth) ⟨[], session.active⟩).1) :
    Agrees store depth parts session (.error failure, after) := by
  refine ⟨continues, ?_, ?_, ends⟩
  · rintro _ ⟨⟩
  · rintro _ ⟨⟩
    exact comes

end Outcomes

/-- A part agrees with parts afresh in every sound session. -/
structure Faithful (store : Store) (depth : Nat) (part : Evaluation α)
    (parts : Nat → Evaluation α) : Prop where
  reliable : ∀ other, Reliable other parts
  agrees : ∀ session, session.Sound store → Agrees store depth parts session (perform part session)

theorem Agrees.comes {parts : Nat → Evaluation α} {session : Session}
    {outcome : Except Failure α × Session} (agrees : Agrees store depth parts session outcome)
    (ended : outcome.1 ≠ .error (.fault .unending)) : Comes parts session.active outcome.1 := by
  cases result : outcome.1 with
  | ok value =>
      refine agrees.value value result session.active ?_
      rw [← agrees.continues.active]
      exact agrees.continues.sound.apart
  | error failure =>
      refine agrees.failure failure result fun unending => ended ?_
      rw [result, unending]

theorem agrees_failure {parts : Nat → Evaluation α} {session : Session}
    (sound : session.Sound store) {failure : Failure}
    (same : (perform (parts depth) ⟨[], session.active⟩).1 = .error failure) :
    Agrees store depth parts session (.error failure, session) := by
  refine .of_failure sound.continues (fun ended => ?_) fun _ => same.symm
  exact ⟨fun unending => ended (Except.error.inj unending), depth, same⟩

theorem faithful_fixed {parts : Nat → Evaluation α} (fixed : ∀ other, Fixed (parts other))
    (lasts : ∀ other, Lasts (parts other) (parts (other + 1))) :
    Faithful store depth (parts depth) parts := by
  refine ⟨fun other => ⟨(fixed other).steady, lasts other⟩, fun session sound => ?_⟩
  obtain ⟨result, same⟩ := (fixed depth).perform_eq
  rw [same session]
  cases result with
  | error failure => exact agrees_failure sound (by rw [same])
  | ok value =>
      refine .of_value sound.continues (fun active _ => ?_) fun _ => by rw [same]
      exact ⟨nofun, depth, by rw [same]⟩

theorem Faithful.bind {part : Evaluation α} {parts : Nat → Evaluation α}
    {next : α → Evaluation β} {nexts : Nat → α → Evaluation β}
    (faithful : Faithful store depth part parts)
    (nextFaithful : ∀ value, Faithful store depth (next value) fun other => nexts other value) :
    Faithful store depth (part >>= next) fun other => parts other >>= nexts other := by
  have nextReliable (value : α) := (nextFaithful value).reliable
  refine ⟨fun other => (faithful.reliable other).bind fun value => nextReliable value other,
    fun session sound => ?_⟩
  have first := faithful.agrees session sound
  have steady := (faithful.reliable depth).steady ⟨[], session.active⟩
  rw [perform_bind]
  rcases performed : perform part session with ⟨failure | value, middle⟩
  · rw [performed] at first
    refine .of_failure first.continues (fun ended => ?_) fun ended => ?_
    · exact (first.failure failure rfl ended).bind_error
    · have same := first.ends
      rw [perform_bind] at ended ⊢
      rcases fresh : perform (parts depth) ⟨[], session.active⟩ with ⟨other | other, last⟩
      · rw [fresh] at ended same
        have isFailure := same (ended_of_error ended)
        exact congrArg Except.error (Except.error.inj isFailure)
      · rw [fresh] at same
        cases same nofun
  · rw [performed] at first
    have second := (nextFaithful value).agrees middle first.continues.sound
    have isActive : middle.active = session.active := first.continues.active
    refine ⟨first.continues.trans second.continues, ?_, ?_, ?_⟩
    · intro result isResult active lacks
      have middleLacks := second.continues.lacks active lacks
      exact (first.value value rfl active middleLacks).bind faithful.reliable (nextReliable value)
        (second.value result isResult active lacks)
    · intro failure isFailure ended
      have comes := second.failure failure isFailure ended
      rw [isActive] at comes
      refine Comes.bind faithful.reliable (nextReliable value) ?_ comes
      rw [← isActive]
      exact first.value value rfl middle.active first.continues.sound.apart
    · intro ended
      have same := first.ends
      rw [perform_bind] at ended ⊢
      rcases fresh : perform (parts depth) ⟨[], session.active⟩ with ⟨other | other, last⟩
      · rw [fresh] at ended same
        cases same (ended_of_error ended)
      · rw [fresh] at ended same steady
        cases same nofun
        cases steady
        have sameNext := second.ends
        rw [isActive] at sameNext
        exact sameNext ended

theorem congruence_faithful (store : Store) (depth : Nat) :
    Congruence depth fun _ => Faithful store depth :=
  ⟨faithful_fixed, Faithful.bind⟩

/-! ## Documents -/

/-- The evaluation of the content of a document without remembering any. -/
def contentAfresh (depth : Nat) (store : Store) (document : Document) : Evaluation Value :=
  ofContent (afresh depth store ⟨document.path, []⟩ document.source []) document.content

theorem perform_pathAfresh (depth : Nat) {path : Text} {document : Document} {active : List Text}
    (found : store.find? path = some document) (new : path ∉ active) :
    (perform (pathAfresh depth store path) ⟨[], active⟩).1 =
      (perform (contentAfresh depth store document) ⟨[], path :: active⟩).1 := by
  unfold pathAfresh documentAfresh
  rw [perform_bind, perform_get, found]
  dsimp only
  rw [if_neg (by simpa using new)]
  rfl

theorem comes_pathAfresh {path : Text} {document : Document} {active : List Text}
    {result : Except Failure Value} (found : store.find? path = some document)
    (new : path ∉ active)
    (comes : Comes (fun depth => contentAfresh depth store document) (path :: active) result) :
    Comes (fun depth => pathAfresh depth store path) active result := by
  obtain ⟨ended, depth, same⟩ := comes
  exact ⟨ended, depth, (perform_pathAfresh depth found new).trans same⟩

/-- The evaluation of a document as a whole agrees with evaluation afresh if that of its content
does.  What is remembered then is the value that the document has come to. -/
theorem Agrees.within {path : Text} {document : Document} {session : Session}
    {body : Evaluation Value} (found : store.find? path = some document)
    (new : path ∉ session.active)
    (agrees : Agrees store depth (fun other => contentAfresh other store document)
      (session.enter path) (perform body (session.enter path))) :
    Agrees store depth (fun other => pathAfresh other store path) session
      (perform (within path body) session) := by
  have same := perform_pathAfresh depth found new
  rw [perform_within]
  rcases performed : perform body (session.enter path) with ⟨failure | value, after⟩
  · rw [performed] at agrees
    refine .of_failure (agrees.continues.leave new) (fun ended => ?_) fun ended => ?_
    · exact comes_pathAfresh found new (agrees.failure failure rfl ended)
    · rw [same] at ended ⊢
      exact agrees.ends ended
  · rw [performed] at agrees
    have comes (active : List Text)
        (lacks : ((after.leave path).remember path value).Lacks active) :
        Comes (fun depth => pathAfresh depth store path) active (.ok value) := by
      -- The document was being evaluated all the while, so that nothing remembered needs it.
      have notRemembered : after.value? path = none := by
        apply agrees.continues.sound.apart path
        rw [agrees.continues.active]
        exact List.mem_cons_self
      obtain ⟨notMember, others⟩ := Session.lacks_remember.mp lacks
      refine comes_pathAfresh found notMember (agrees.value value rfl (path :: active) ?_)
      exact List.forall_mem_cons.mpr ⟨notRemembered, others⟩
    refine .of_value ((agrees.continues.leave new).remember new comes) comes fun ended => ?_
    rw [same] at ended ⊢
    exact agrees.ends ended

/-- The evaluation of a document agrees with evaluation afresh if those of expressions do. -/
theorem faithful_document
    (inner : ∀ site source scope expr, Faithful store depth
      (ofExpr depth store site source scope expr)
      fun other => afresh other store site source scope expr) (path : Text) :
    Faithful store depth (ofPath depth store path) fun other => pathAfresh other store path := by
  have reliable := fun other => reliable_pathAfresh other store path
  refine ⟨reliable, fun session sound => ?_⟩
  unfold ofPath ofDocument
  rw [perform_bind, perform_get]
  dsimp only
  cases remembered : session.value? path with
  | some value =>
      have truthful := sound.truthful path value remembered
      refine .of_value sound.continues truthful fun ended => ?_
      exact (truthful session.active sound.apart).unique reliable ⟨ended, depth, rfl⟩
  | none =>
      cases found : store.find? path with
      | none =>
          refine agrees_failure sound ?_
          unfold pathAfresh documentAfresh
          rw [perform_bind, perform_get, found]
          rfl
      | some document =>
          dsimp only
          split
          case isTrue isActive =>
            refine agrees_failure sound ?_
            unfold pathAfresh documentAfresh
            rw [perform_bind, perform_get, found]
            dsimp only
            rw [if_pos isActive]
            rfl
          case isFalse notActive =>
            have contentFaithful : Faithful store depth
                (ofContent (ofExpr depth store ⟨document.path, []⟩ document.source [])
                  document.content) fun other => contentAfresh other store document := by
              unfold contentAfresh
              cases document.content with
              | data value => exact (congruence_faithful store depth).constant .value
              | expr expr => exact inner _ _ _ expr
            exact .within found (by simpa using notActive)
              (contentFaithful.agrees (session.enter path) (sound.enter remembered))

/-! ## Expressions -/

theorem Comes.of_succ {parts : Nat → Evaluation α} {active : List Text}
    {result : Except Failure α} (comes : Comes (fun depth => parts (depth + 1)) active result) :
    Comes parts active result := by
  obtain ⟨ended, depth, same⟩ := comes
  exact ⟨ended, depth + 1, same⟩

/-- What agrees with parts at depths that are one more agrees with the parts themselves. -/
theorem Faithful.of_succ {part : Evaluation α} {parts : Nat → Evaluation α}
    (faithful : Faithful store depth part fun other => parts (other + 1))
    (reliable : ∀ other, Reliable other parts) : Faithful store (depth + 1) part parts := by
  refine ⟨reliable, fun session sound => ?_⟩
  obtain ⟨continues, value, failure, ends⟩ := faithful.agrees session sound
  refine ⟨continues, ?_, ?_, ends⟩
  · intro given isValue active lacks
    exact (value given isValue active lacks).of_succ
  · intro given isFailure ended
    exact (failure given isFailure ended).of_succ

/-- In sound sessions an expression comes to what it comes to afresh. -/
theorem faithful_ofExpr (store : Store) (depth : Nat) (site : Site) (source : Source)
    (scope : Scope) (expr : Expr) :
    Faithful store depth (ofExpr depth store site source scope expr)
      fun other => afresh other store site source scope expr := by
  induction depth generalizing site source scope expr with
  | zero =>
      exact ⟨fun other => reliable_afresh other store site source scope expr,
        fun session sound => agrees_failure sound rfl⟩
  | succ depth induction =>
      refine Faithful.of_succ ?_ fun other => reliable_afresh other store site source scope expr
      rw [ofExpr_succ]
      exact @Congruence.level depth _ store (ofExpr depth store) (fun other => afresh other store)
        (ofTarget depth store) (fun other => pathAfresh other store)
        (congruence_faithful store depth) induction (faithful_document induction) site source scope
        expr

theorem faithful_ofPath (store : Store) (depth : Nat) (path : Text) :
    Faithful store depth (ofPath depth store path) fun other => pathAfresh other store path :=
  faithful_document (faithful_ofExpr store depth) path

/-! ## One after another -/

/-- The evaluation of a document that starts in a session ends with a result, if the depth
suffices, and leaves a session behind. -/
def Ends (store : Store) (session : Session) (path : Text) (result : Except Failure Value)
    (after : Session) : Prop :=
  result ≠ .error (.fault .unending) ∧
    ∃ depth, perform (ofPath depth store path) session = (result, after)

/-- Documents are evaluated one after another in one session, and each evaluation ends. -/
inductive InTurn (store : Store) :
    Session → List (Text × Except Failure Value) → Session → Prop where
  | nil {session : Session} : InTurn store session [] session
  | cons {session middle after : Session} {path : Text} {result : Except Failure Value}
      {rest : List (Text × Except Failure Value)} :
      Ends store session path result middle →
      InTurn store middle rest after →
      InTurn store session ((path, result) :: rest) after

variable {session after : Session} {path : Text} {result : Except Failure Value}

/-- An evaluation ends in one way only, whatever depth suffices. -/
theorem Ends.unique {other : Except Failure Value} {otherAfter : Session}
    (ends : Ends store session path result after)
    (otherEnds : Ends store session path other otherAfter) :
    result = other ∧ after = otherAfter := by
  obtain ⟨ended, depth, same⟩ := ends
  obtain ⟨otherEnded, otherDepth, otherSame⟩ := otherEnds
  have lasts := lasts_ofPath store path (Nat.le_max_left depth otherDepth) session
  have otherLasts := lasts_ofPath store path (Nat.le_max_right depth otherDepth) session
  rw [same] at lasts
  rw [otherSame, lasts ended] at otherLasts
  exact Prod.mk.inj (otherLasts otherEnded)

theorem Ends.continues (sound : session.Sound store)
    (ends : Ends store session path result after) : session.Continues store after := by
  obtain ⟨_, depth, same⟩ := ends
  have agrees := (faithful_ofPath store depth path).agrees session sound
  rw [same] at agrees
  exact agrees.continues

/-- In a sound session evaluations end with what documents come to afresh. -/
theorem exists_ends_iff (sound : session.Sound store) :
    (∃ after, Ends store session path result after) ↔
      Comes (fun depth => pathAfresh depth store path) session.active result := by
  constructor
  · rintro ⟨after, ended, depth, same⟩
    have agrees := (faithful_ofPath store depth path).agrees session sound
    rw [same] at agrees
    exact agrees.comes ended
  · rintro ⟨ended, depth, rfl⟩
    have agrees := (faithful_ofPath store depth path).agrees session sound
    exact ⟨(perform (ofPath depth store path) session).2, ended, depth,
      Prod.ext (agrees.ends ended) rfl⟩

theorem InTurn.continues {runs : List (Text × Except Failure Value)} (sound : session.Sound store)
    (inTurn : InTurn store session runs after) : session.Continues store after := by
  induction inTurn with
  | nil => exact sound.continues
  | cons ends _ induction =>
      have first := ends.continues sound
      exact first.trans (induction first.sound)

theorem exists_inTurn_iff {runs : List (Text × Except Failure Value)}
    (sound : session.Sound store) :
    (∃ after, InTurn store session runs after) ↔
      ∀ run ∈ runs, Comes (fun depth => pathAfresh depth store run.1) session.active run.2 := by
  induction runs generalizing session with
  | nil => exact ⟨fun _ => List.forall_mem_nil _, fun _ => ⟨session, .nil⟩⟩
  | cons run runs induction =>
      rw [List.forall_mem_cons, ← exists_ends_iff sound]
      constructor
      · rintro ⟨after, inTurn⟩
        cases inTurn with
        | cons ends rest =>
            have first := ends.continues sound
            rw [← first.active]
            exact ⟨⟨_, ends⟩, (induction first.sound).mp ⟨after, rest⟩⟩
      · rintro ⟨⟨middle, ends⟩, others⟩
        have first := ends.continues sound
        rw [← first.active] at others
        obtain ⟨after, rest⟩ := (induction first.sound).mpr others
        exact ⟨after, .cons ends rest⟩

/-- A session can be shared by evaluations.

Each evaluation ends in one way only.  Evaluations one after another in one session end with given
results just when each of them ends with its result in a session of its own.  Whatever failed among
them, no document is left as being evaluated behind them, and each value that is remembered is that
with which the evaluation of its document ends in a session of its own. -/
theorem inTurn_iff_each_ends (store : Store) :
    (∀ session path result other after otherAfter, Ends store session path result after →
      Ends store session path other otherAfter → result = other ∧ after = otherAfter) ∧
    ∀ runs : List (Text × Except Failure Value),
      ((∃ after, InTurn store .start runs after) ↔
        ∀ run ∈ runs, ∃ after, Ends store .start run.1 run.2 after) ∧
      ∀ after, InTurn store .start runs after →
        after.active = [] ∧
        ∀ path value, after.value? path = some value →
          ∃ last, Ends store .start path (.ok value) last := by
  have sound := Session.sound_start store
  refine ⟨fun _ _ _ _ _ _ => Ends.unique, fun runs => ⟨?_, fun after inTurn => ?_⟩⟩
  · rw [exists_inTurn_iff sound]
    simp only [exists_ends_iff sound]
  · have continues := inTurn.continues sound
    refine ⟨continues.active, fun path value remembered => ?_⟩
    rw [exists_ends_iff sound]
    exact continues.sound.truthful path value remembered [] (List.forall_mem_nil _)

/-- A document that needs one that is null, and another one that needs the first. -/
def cyclicStore : Store where
  documents := [
    ⟨⟨"/a", []⟩, .cairn,
      .expr (.array ⟨0, 0⟩ [.importOf ⟨0, 1⟩ "c", .importOf ⟨1, 2⟩ "b"]), 0⟩,
    ⟨⟨"/b", []⟩, .cairn, .expr (.importOf ⟨0, 1⟩ "a"), 1⟩,
    ⟨⟨"/c", []⟩, .json, .data .null, 2⟩]
  imports := [
    (⟨"/a", some ⟨0, 1⟩⟩, "/c"), (⟨"/a", some ⟨1, 2⟩⟩, "/b"), (⟨"/b", some ⟨0, 1⟩⟩, "/a")]

/-- Two evaluations that fail, and between them one of a document that the first needed. -/
def cyclicRuns : List (Text × Except Failure Value) := [
  ("/a", .error (.error (recursionError "/a"))),
  ("/c", .ok .null),
  ("/b", .error (.error (recursionError "/b")))]

theorem inTurn_iff_each_ends_cycle :
    ∃ after, InTurn cyclicStore .start cyclicRuns after ∧ after.active = [] := by
  obtain ⟨exists_iff, behind⟩ := (inTurn_iff_each_ends cyclicStore).2 cyclicRuns
  have each : ∀ run ∈ cyclicRuns, ∃ after, Ends cyclicStore .start run.1 run.2 after := by
    simp only [cyclicRuns, List.forall_mem_cons]
    exact ⟨⟨_, nofun, 5, rfl⟩, ⟨_, nofun, 1, rfl⟩, ⟨_, nofun, 5, rfl⟩, List.forall_mem_nil _⟩
  obtain ⟨after, inTurn⟩ := exists_iff.mpr each
  exact ⟨after, inTurn, (behind after inTurn).1⟩

end Evaluation

end ConfigGraph
