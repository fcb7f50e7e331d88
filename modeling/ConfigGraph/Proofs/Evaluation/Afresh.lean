import ConfigGraph.Proofs.Evaluation.Level

/-!
# Evaluation afresh

What documents mean does not depend on what a session remembers.  `afresh` is the evaluation that
remembers nothing: every document that is needed is evaluated again, and the session is left as it
was.  It has the levels of the evaluation that remembers, so it differs in documents only.
-/

namespace ConfigGraph.Evaluation

variable {α β : Type}

/-- The evaluation of a document as a whole, which leaves the session as it was. -/
def apart (path : Text) (body : Evaluation Value) : Evaluation Value := fun session =>
  ((body.perform (session.enter path)).1, session)

/-- Evaluates a document by the given evaluation of expressions, whatever is remembered. -/
def documentAfresh (store : Store) (evaluate : Document → Expr → Evaluation Value) (path : Text) :
    Evaluation Value := do
  let session ← get
  match store.find? path with
  | none => throw (.fault (.internal (.unknownDocument path)))
  | some document =>
      if session.active.contains path then throw (.error (recursionError path))
      else apart path (ofContent (evaluate document) document.content)

/-- Evaluates an expression without remembering documents. -/
def afresh : Nat → Store → Site → Source → Scope → Expr → Evaluation Value
  | 0, _, _, _, _, _ => unending
  | depth + 1, store, site, source, scope, expr =>
      level depth store (afresh depth store)
        (documentAfresh store fun document expr =>
          afresh depth store ⟨document.path, []⟩ document.source [] expr)
        site source scope expr

/-- Evaluates a document of a store without remembering any. -/
def pathAfresh (depth : Nat) (store : Store) (path : Text) : Evaluation Value :=
  documentAfresh store (fun document expr =>
    afresh depth store ⟨document.path, []⟩ document.source [] expr) path

theorem perform_apart (path : Text) (body : Evaluation Value) (session : Session) :
    perform (apart path body) session = ((perform body (session.enter path)).1, session) := rfl

/-! ## Sessions stay as they are -/

/-- A part leaves every session as it was. -/
def Steady (part : Evaluation α) : Prop := ∀ session, (perform part session).2 = session

theorem Fixed.steady {part : Evaluation α} (fixed : Fixed part) : Steady part := by
  obtain ⟨result, same⟩ := fixed.perform_eq
  intro session
  rw [same]

theorem Steady.bind {part : Evaluation α} {next : α → Evaluation β} (steady : Steady part)
    (nextSteady : ∀ value, Steady (next value)) : Steady (part >>= next) := by
  intro session
  have same := steady session
  rw [perform_bind]
  rcases performed : perform part session with ⟨failure | value, after⟩
  · rw [performed] at same
    exact same
  · rw [performed] at same
    cases same
    exact nextSteady value after

theorem steady_documentAfresh (store : Store) (evaluate : Document → Expr → Evaluation Value)
    (path : Text) : Steady (documentAfresh store evaluate path) := by
  refine Steady.bind (fun _ => rfl) fun session => ?_
  split
  · exact fun _ => rfl
  · split
    · exact fun _ => rfl
    · exact fun _ => rfl

theorem Lasts.apart {first second : Evaluation Value} (lasts : Lasts first second) (path : Text) :
    Lasts (apart path first) (apart path second) := by
  intro session ended
  rw [perform_apart] at ended
  rw [perform_apart, perform_apart, lasts _ ended]

theorem lasts_documentAfresh {store : Store} {first second : Document → Expr → Evaluation Value}
    (lasts : ∀ document expr, Lasts (first document expr) (second document expr)) (path : Text) :
    Lasts (documentAfresh store first path) (documentAfresh store second path) := by
  refine .bind (.refl get) fun session => ?_
  split
  · exact .refl _
  · split
    · exact .refl _
    · exact (lasts_ofContent (lasts _) _).apart path

/-- A part leaves sessions as they were, and more depth changes nothing where the depth suffices. -/
structure Reliable (depth : Nat) (parts : Nat → Evaluation α) : Prop where
  steady : Steady (parts depth)
  lasts : Lasts (parts depth) (parts (depth + 1))

theorem Reliable.bind {depth : Nat} {parts : Nat → Evaluation α} {nexts : Nat → α → Evaluation β}
    (reliable : Reliable depth parts)
    (nextReliable : ∀ value, Reliable depth fun other => nexts other value) :
    Reliable depth fun other => parts other >>= nexts other :=
  ⟨reliable.steady.bind fun value => (nextReliable value).steady,
    reliable.lasts.bind fun value => (nextReliable value).lasts⟩

theorem congruence_reliable (depth : Nat) :
    Congruence depth fun _ _ parts => Reliable depth parts :=
  ⟨fun fixed lasts => ⟨(fixed depth).steady, lasts depth⟩, Reliable.bind⟩

theorem Reliable.mapM {depth : Nat} {transforms : Nat → α → Evaluation β}
    (reliable : ∀ item, Reliable depth fun other => transforms other item) (items : List α) :
    Reliable depth fun other => items.mapM (transforms other) :=
  @Congruence.mapM α β depth _ (congruence_reliable depth) (transforms depth) transforms reliable
    items

theorem reliable_afresh (depth : Nat) (store : Store) (site : Site) (source : Source)
    (scope : Scope) (expr : Expr) :
    Reliable depth fun other => afresh other store site source scope expr := by
  induction depth generalizing site source scope expr with
  | zero => exact ⟨fun _ => rfl, lasts_unending _⟩
  | succ depth induction =>
      have neededReliable (path : Text) :
          Reliable depth fun other => pathAfresh other store path :=
        ⟨steady_documentAfresh _ _ _,
          lasts_documentAfresh (fun _ expr => (induction _ _ _ expr).lasts) path⟩
      have reliable := @Congruence.level depth _ store (afresh depth store)
        (fun other => afresh other store) (pathAfresh depth store)
        (fun other => pathAfresh other store) (congruence_reliable depth) induction neededReliable
        site source scope expr
      exact ⟨reliable.steady, reliable.lasts⟩

theorem reliable_pathAfresh (depth : Nat) (store : Store) (path : Text) :
    Reliable depth fun other => pathAfresh other store path :=
  ⟨steady_documentAfresh _ _ _,
    lasts_documentAfresh (fun _ expr => (reliable_afresh depth store _ _ _ expr).lasts) path⟩

/-! ## What parts come to -/

/-- While some documents are being evaluated, parts come to a result if the depth suffices. -/
def Comes (parts : Nat → Evaluation α) (active : List Text) (result : Except Failure α) : Prop :=
  result ≠ .error (.fault .unending) ∧
    ∃ depth, (perform (parts depth) ⟨[], active⟩).1 = result

variable {parts : Nat → Evaluation α} {nexts : Nat → α → Evaluation β} {active : List Text}

/-- Whatever depth suffices, the result is the same. -/
theorem Comes.perform_eq (reliable : ∀ depth, Reliable depth parts)
    {result : Except Failure α} (comes : Comes parts active result) :
    ∃ depth, ∀ larger, depth ≤ larger →
      perform (parts larger) ⟨[], active⟩ = (result, ⟨[], active⟩) := by
  obtain ⟨ended, depth, same⟩ := comes
  refine ⟨depth, fun larger atLeast => ?_⟩
  have lasts := lasts_of_le (fun depth => (reliable depth).lasts) atLeast ⟨[], active⟩
    (by rw [same]; exact ended)
  rw [lasts]
  exact Prod.ext same ((reliable depth).steady _)

theorem Comes.unique (reliable : ∀ depth, Reliable depth parts) {result other : Except Failure α}
    (comes : Comes parts active result) (otherComes : Comes parts active other) :
    result = other := by
  obtain ⟨depth, same⟩ := comes.perform_eq reliable
  obtain ⟨otherDepth, otherSame⟩ := otherComes.perform_eq reliable
  have both := same (max depth otherDepth) (Nat.le_max_left _ _)
  rw [otherSame (max depth otherDepth) (Nat.le_max_right _ _)] at both
  exact (Prod.mk.inj both).1.symm

theorem Comes.bind (reliable : ∀ depth, Reliable depth parts) {value : α}
    (nextReliable : ∀ depth, Reliable depth fun other => nexts other value)
    {result : Except Failure β} (comes : Comes parts active (.ok value))
    (nextComes : Comes (fun depth => nexts depth value) active result) :
    Comes (fun depth => parts depth >>= nexts depth) active result := by
  obtain ⟨depth, same⟩ := comes.perform_eq reliable
  obtain ⟨nextDepth, nextSame⟩ := nextComes.perform_eq nextReliable
  refine ⟨nextComes.1, max depth nextDepth, ?_⟩
  rw [perform_bind, same _ (Nat.le_max_left _ _)]
  dsimp only
  rw [nextSame _ (Nat.le_max_right _ _)]

theorem Comes.bind_error {failure : Failure} (comes : Comes parts active (.error failure)) :
    Comes (fun depth => parts depth >>= nexts depth) active (.error failure) := by
  obtain ⟨ended, depth, same⟩ := comes
  refine ⟨ended_of_error ended, depth, ?_⟩
  rw [perform_bind]
  rcases performed : perform (parts depth) ⟨[], active⟩ with ⟨_ | value, after⟩
  · rw [performed] at same
    cases same
    rfl
  · rw [performed] at same
    cases same

/-- Behind parts that come to a value, parts come to what the next ones come to. -/
theorem Comes.bind_iff (reliable : ∀ depth, Reliable depth parts) {value : α}
    (nextReliable : ∀ depth, Reliable depth fun other => nexts other value)
    (comes : Comes parts active (.ok value)) {result : Except Failure β} :
    Comes (fun depth => parts depth >>= nexts depth) active result ↔
      Comes (fun depth => nexts depth value) active result := by
  refine ⟨?_, comes.bind reliable nextReliable⟩
  rintro ⟨ended, depth, same⟩
  have steady := (reliable depth).steady ⟨[], active⟩
  rw [perform_bind] at same
  rcases performed : perform (parts depth) ⟨[], active⟩ with ⟨failure | given, after⟩
  · rw [performed] at same
    cases same
    have fails : Comes parts active (.error failure) :=
      ⟨ended_of_error ended, depth, by rw [performed]⟩
    cases comes.unique reliable fails
  · rw [performed] at same steady
    cases steady
    have gives : Comes parts active (.ok given) := ⟨nofun, depth, by rw [performed]⟩
    cases comes.unique reliable gives
    exact ⟨ended, depth, same⟩

/-- Parts that each come to a value come to these values one after another. -/
theorem Comes.mapM {items : List α} {values : List β} {transforms : Nat → α → Evaluation β}
    (reliable : ∀ item depth, Reliable depth fun other => transforms other item)
    (each : List.Forall₂ (fun item value =>
      Comes (fun depth => transforms depth item) active (.ok value)) items values) :
    Comes (fun depth => items.mapM (transforms depth)) active (.ok values) := by
  induction each with
  | nil => exact ⟨nofun, 0, rfl⟩
  | @cons item value items values comes _ induction =>
      have restReliable (depth : Nat) :
          Reliable depth fun other => items.mapM (transforms other) :=
        .mapM (fun item => reliable item depth) items
      have putReliable (images : List β) (depth : Nat) :
          Reliable depth fun _ => (pure (value :: images) : Evaluation (List β)) :=
        (congruence_reliable depth).constant .value
      simp only [List.mapM_cons]
      refine .bind (reliable item) (fun depth => ?_) comes
        (.bind restReliable ?_ induction ⟨nofun, 0, rfl⟩)
      · exact (restReliable depth).bind fun images => putReliable images depth
      · exact putReliable values

end ConfigGraph.Evaluation
