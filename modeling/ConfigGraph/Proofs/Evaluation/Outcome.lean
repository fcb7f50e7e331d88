import ConfigGraph.Proofs.Evaluation.Perform

/-!
# Outcomes of parts of an evaluation

In a session a part either gives a value or fails.  What a part that is put together of others comes
to is told by what they come to.
-/

namespace ConfigGraph.Evaluation

variable {α β : Type}

/-- In a session a part gives a value, and leaves another session behind. -/
def Gives (part : Evaluation α) (session : Session) (value : α) (after : Session) : Prop :=
  perform part session = (.ok value, after)

/-- In a session a part fails. -/
def Fails (part : Evaluation α) (session : Session) (failure : Failure) : Prop :=
  (perform part session).1 = .error failure

theorem gives_pure {value given : α} {session after : Session} :
    Gives (pure value) session given after ↔ given = value ∧ after = session := by
  constructor
  · intro gives
    cases gives
    exact ⟨rfl, rfl⟩
  · rintro ⟨rfl, rfl⟩
    rfl

theorem not_fails_pure {value : α} {session : Session} {failure : Failure} :
    ¬Fails (pure value : Evaluation α) session failure := by
  intro fails
  cases fails

theorem gives_bind {part : Evaluation α} {next : α → Evaluation β} {session last : Session}
    {result : β} :
    Gives (part >>= next) session result last ↔
      ∃ value after, Gives part session value after ∧ Gives (next value) after result last := by
  unfold Gives
  rw [perform_bind]
  constructor
  · intro gives
    rcases performed : perform part session with ⟨failure | value, after⟩
    · rw [performed] at gives
      cases gives
    · rw [performed] at gives
      exact ⟨value, after, rfl, gives⟩
  · rintro ⟨value, after, first, second⟩
    rw [first]
    exact second

theorem fails_bind {part : Evaluation α} {next : α → Evaluation β} {session : Session}
    {failure : Failure} :
    Fails (part >>= next) session failure ↔
      Fails part session failure ∨
        ∃ value after, Gives part session value after ∧ Fails (next value) after failure := by
  unfold Fails Gives
  rw [perform_bind]
  constructor
  · intro fails
    rcases performed : perform part session with ⟨other | value, after⟩
    · rw [performed] at fails
      cases fails
      exact .inl rfl
    · rw [performed] at fails
      exact .inr ⟨value, after, rfl, fails⟩
  · rintro (first | ⟨value, after, first, second⟩)
    · rcases performed : perform part session with ⟨other | value, after⟩
      · rw [performed] at first
        cases first
        rfl
      · rw [performed] at first
        cases first
    · rw [first]
      exact second

theorem fails_get {next : Session → Evaluation β} {session : Session} {failure : Failure} :
    Fails (get >>= next) session failure ↔ Fails (next session) session failure := by
  unfold Fails
  rw [perform_bind, perform_get]

theorem not_gives_fail {source : Source} {span : Span} {code : ErrorCode} {details : Details}
    {session after : Session} {value : α} :
    ¬Gives (fail source span code details : Evaluation α) session value after := by
  intro gives
  unfold fail at gives
  split at gives <;> cases gives

/-! ## Sequences -/

/-- A row of parts fails as the first one of them that fails. -/
theorem fails_mapM {transform : α → Evaluation β} {items : List α} {session : Session}
    {failure : Failure} :
    Fails (items.mapM transform) session failure ↔
      ∃ before item behind images middle, items = before ++ item :: behind ∧
        Gives (before.mapM transform) session images middle ∧
        Fails (transform item) middle failure := by
  constructor
  · intro fails
    induction items generalizing session with
    | nil => cases fails
    | cons head items induction =>
        rw [List.mapM_cons, fails_bind] at fails
        rcases fails with first | ⟨image, after, isImage, rest⟩
        · exact ⟨[], head, items, [], session, rfl, rfl, first⟩
        · rw [fails_bind] at rest
          rcases rest with later | ⟨images, last, _, never⟩
          · obtain ⟨before, item, behind, images, middle, rfl, areImages, isLater⟩ :=
              induction later
            refine ⟨head :: before, item, behind, image :: images, middle, rfl, ?_, isLater⟩
            rw [List.mapM_cons, gives_bind]
            refine ⟨image, after, isImage, ?_⟩
            rw [gives_bind]
            exact ⟨images, middle, areImages, rfl⟩
          · exact absurd never not_fails_pure
  · rintro ⟨before, item, behind, images, middle, rfl, areImages, fails⟩
    rw [List.mapM_append, fails_bind]
    refine .inr ⟨images, middle, areImages, ?_⟩
    rw [List.mapM_cons, fails_bind, fails_bind]
    exact .inl (.inl fails)

/-- Steps fail as the first one of them that fails. -/
theorem fails_foldlM {step : β → α → Evaluation β} {items : List α} {state : β}
    {session : Session} {failure : Failure} :
    Fails (items.foldlM step state) session failure ↔
      ∃ before item behind next middle, items = before ++ item :: behind ∧
        Gives (before.foldlM step state) session next middle ∧
        Fails (step next item) middle failure := by
  constructor
  · intro fails
    induction items generalizing state session with
    | nil => cases fails
    | cons head items induction =>
        rw [List.foldlM_cons, fails_bind] at fails
        rcases fails with first | ⟨middle, after, isMiddle, rest⟩
        · exact ⟨[], head, items, state, session, rfl, rfl, first⟩
        · obtain ⟨before, item, behind, next, last, rfl, isNext, isLater⟩ := induction rest
          refine ⟨head :: before, item, behind, next, last, rfl, ?_, isLater⟩
          rw [List.foldlM_cons, gives_bind]
          exact ⟨middle, after, isMiddle, isNext⟩
  · rintro ⟨before, item, behind, next, middle, rfl, isNext, fails⟩
    rw [List.foldlM_append, fails_bind]
    refine .inr ⟨next, middle, isNext, ?_⟩
    rw [List.foldlM_cons, fails_bind]
    exact .inl fails

/-! ## Documents -/

theorem fails_within {path : Text} {body : Evaluation Value} {session : Session}
    {failure : Failure} :
    Fails (within path body) session failure ↔ Fails body (session.enter path) failure := by
  unfold Fails
  rw [perform_within]
  rcases perform body (session.enter path) with ⟨other | value, after⟩ <;> rfl

/-- A document that is evaluated fails as its content does. -/
theorem fails_ofDocument {store : Store} {evaluate : Document → Expr → Evaluation Value}
    {path : Text} {session : Session} {fault : Fault} :
    Fails (ofDocument store evaluate path) session (.fault fault) ↔
      session.value? path = none ∧
        (store.find? path = none ∧ fault = .internal (.unknownDocument path) ∨
          ∃ document, store.find? path = some document ∧ path ∉ session.active ∧
            Fails (ofContent (evaluate document) document.content) (session.enter path)
              (.fault fault)) := by
  unfold ofDocument
  rw [fails_get]
  cases session.value? path with
  | some value => simp [not_fails_pure]
  | none =>
      cases store.find? path with
      | none =>
          constructor
          · intro fails
            cases fails
            exact ⟨rfl, .inl ⟨rfl, rfl⟩⟩
          · rintro ⟨_, ⟨_, rfl⟩ | ⟨document, found, _⟩⟩
            · rfl
            · cases found
      | some document =>
          dsimp only
          by_cases active : path ∈ session.active
          · rw [if_pos (by simpa using active)]
            constructor
            · intro fails
              cases fails
            · rintro ⟨_, ⟨found, _⟩ | ⟨other, _, inactive, _⟩⟩
              · cases found
              · exact absurd active inactive
          · rw [if_neg (by simpa using active), fails_within]
            constructor
            · intro fails
              exact ⟨rfl, .inr ⟨document, rfl, active, fails⟩⟩
            · rintro ⟨_, ⟨found, _⟩ | ⟨other, found, _, fails⟩⟩
              · cases found
              · cases found
                exact fails

end ConfigGraph.Evaluation
