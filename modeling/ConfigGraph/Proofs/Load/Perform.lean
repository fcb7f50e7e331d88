import ConfigGraph.Crawl
import ConfigGraph.Proofs.Sequence

/-!
# Performing parts of a load

What the building blocks of a load come to in a state.
-/

namespace ConfigGraph.Load

variable {σ : Type} {α β : Type}

/-- A part and what follows it.  A failure of the part is a failure of the whole. -/
theorem perform_bind (part : Load σ α) (next : α → Load σ β) (state : LoadState σ) :
    perform (part >>= next) state =
      match perform part state with
      | (.ok value, after) => perform (next value) after
      | (.error failure, after) => (.error failure, after) := by
  have same : perform (part >>= next) state = continueWith next (perform part state) :=
    bind_stateful part next state
  rw [same]
  rcases perform part state with ⟨_ | _, after⟩ <;> rfl

@[simp] theorem perform_pure (value : α) (state : LoadState σ) :
    perform (pure value : Load σ α) state = (.ok value, state) := rfl

@[simp] theorem perform_throw (failure : Failure) (state : LoadState σ) :
    perform (throw failure : Load σ α) state = (.error failure, state) := rfl

@[simp] theorem perform_get (state : LoadState σ) :
    perform (get : Load σ (LoadState σ)) state = (.ok state, state) := rfl

@[simp] theorem perform_report (entry : LogEntry) (state : LoadState σ) :
    perform (report entry) state = (.ok ⟨⟩, { state with log := state.log ++ [entry] }) := rfl

@[simp] theorem perform_ask (request : σ → Outcome σ Reply) (state : LoadState σ) :
    perform (ask request) state =
      (.ok (request state.host).reply,
        { state with
          host := (request state.host).state, log := state.log ++ (request state.host).log }) :=
  rfl

@[simp] theorem perform_liftExcept (result : Except Failure α) (state : LoadState σ) :
    perform (liftExcept result : Load σ α) state = (result, state) := by
  cases result <;> rfl

/-- A path that is stored is not visited again. -/
theorem visit_of_contains (host : Host σ) {path : Text} {state : LoadState σ}
    (known : state.store.contains path = true) :
    perform (visit host path) state = (.ok [], state) := by
  unfold visit
  rw [perform_bind, perform_get]
  dsimp only
  rw [if_pos known]
  rfl

theorem visit_of_new (host : Host σ) {path : Text} {state : LoadState σ}
    (new : state.store.contains path = false) :
    perform (visit host path) state =
      perform (readDocument host path >>= fun document =>
        resolveImports host path (.ofText document.source.text) document.content.imports)
        state := by
  unfold visit
  rw [perform_bind, perform_get]
  dsimp only
  rw [if_neg (by simp [new])]

end ConfigGraph.Load
