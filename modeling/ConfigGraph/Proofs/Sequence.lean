/-!
# Parts with a state that can fail

A part of a load and a part of an evaluation both have a state that a failure keeps.  Where there is
no state, a sequence of parts gives a result just when all of them do.
-/

namespace ConfigGraph

/-- What follows a part: the next one, in the state behind it, unless the part fails. -/
def continueWith {ε σ α β : Type} (next : α → σ → Except ε β × σ) :
    Except ε α × σ → Except ε β × σ
  | (.ok value, after) => next value after
  | (.error failure, after) => (.error failure, after)

theorem bind_stateful {ε σ α β : Type} (part : ExceptT ε (StateM σ) α)
    (next : α → ExceptT ε (StateM σ) β) (state : σ) :
    (part >>= next) state = continueWith next (part state) := by
  change (ExceptT.bind part next) state = _
  unfold ExceptT.bind ExceptT.mk
  change (ExceptT.bindCont next (part state).1) (part state).2 = _
  cases part state with
  | mk result after => cases result <;> rfl

theorem of_bind_eq_ok {ε α β : Type} {first : Except ε α} {next : α → Except ε β} {result : β}
    (succeeded : first >>= next = .ok result) :
    ∃ value, first = .ok value ∧ next value = .ok result := by
  cases first with
  | error fault => cases succeeded
  | ok value => exact ⟨value, rfl, succeeded⟩

theorem of_mapError_eq_ok {ε δ α : Type} {result : Except ε α} {change : ε → δ} {value : α}
    (succeeded : result.mapError change = .ok value) : result = .ok value := by
  cases result with
  | error fault => cases succeeded
  | ok other =>
      cases succeeded
      rfl

theorem of_mapError_eq_error {ε δ α : Type} {result : Except ε α} {change : ε → δ} {failure : δ}
    (failed : result.mapError change = .error failure) :
    ∃ fault, result = .error fault ∧ failure = change fault := by
  cases result with
  | error fault =>
      cases failed
      exact ⟨fault, rfl, rfl⟩
  | ok value => cases failed

theorem exists_zip_of_mem_left {α β : Type} {items : List α} {images : List β}
    (sameLength : items.length = images.length) {item : α} (member : item ∈ items) :
    ∃ image, (item, image) ∈ items.zip images := by
  rw [← List.map_fst_zip (Nat.le_of_eq sameLength)] at member
  obtain ⟨⟨_, image⟩, isPair, rfl⟩ := List.mem_map.mp member
  exact ⟨image, isPair⟩

theorem exists_zip_of_mem_right {α β : Type} {items : List α} {images : List β}
    (sameLength : items.length = images.length) {image : β} (member : image ∈ images) :
    ∃ item, (item, image) ∈ items.zip images := by
  rw [← List.map_snd_zip (Nat.le_of_eq sameLength.symm)] at member
  obtain ⟨⟨item, _⟩, isPair, rfl⟩ := List.mem_map.mp member
  exact ⟨item, isPair⟩

theorem zip_of_mapM {ε α β : Type} {transform : α → Except ε β} {items : List α}
    {images : List β} (mapped : items.mapM transform = .ok images) :
    items.length = images.length ∧
      ∀ item image, (item, image) ∈ items.zip images → transform item = .ok image := by
  induction items generalizing images with
  | nil =>
      cases mapped
      exact ⟨rfl, nofun⟩
  | cons item items induction =>
      rw [List.mapM_cons] at mapped
      obtain ⟨first, isFirst, rest⟩ := of_bind_eq_ok mapped
      obtain ⟨others, areOthers, same⟩ := of_bind_eq_ok rest
      cases same
      obtain ⟨sameLength, all⟩ := induction areOthers
      refine ⟨congrArg (· + 1) sameLength, ?_⟩
      intro other image isPair
      rcases List.mem_cons.mp isPair with same | isLater
      · cases same
        exact isFirst
      · exact all other image isLater

theorem of_mapM_eq_ok {ε α β : Type} {transform : α → Except ε β} {items : List α}
    {images : List β} (mapped : items.mapM transform = .ok images) :
    ∀ image ∈ images, ∃ item ∈ items, transform item = .ok image := by
  obtain ⟨sameLength, all⟩ := zip_of_mapM mapped
  intro image isImage
  obtain ⟨item, isPair⟩ := exists_zip_of_mem_right sameLength isImage
  exact ⟨item, (List.of_mem_zip isPair).1, all item image isPair⟩

/-- Where a sequence fails, an item does that has only others before it that do not. -/
theorem first_of_mapM_eq_error {ε α β : Type} {transform : α → Except ε β} {items : List α}
    {failure : ε} (failed : items.mapM transform = .error failure) :
    ∃ (position : Nat) (item : α), items[position]? = some item ∧
      transform item = .error failure ∧
      ∀ (earlier : Nat) (other : α), earlier < position → items[earlier]? = some other →
        ∃ image, transform other = .ok image := by
  induction items with
  | nil => cases failed
  | cons first items induction =>
      rw [List.mapM_cons] at failed
      cases isFirst : transform first with
      | error fault =>
          rw [isFirst] at failed
          cases failed
          exact ⟨0, first, rfl, isFirst, nofun⟩
      | ok image =>
          rw [isFirst] at failed
          have failedLater : items.mapM transform = .error failure := by
            cases mapped : items.mapM transform with
            | ok images =>
                rw [mapped] at failed
                cases failed
            | error fault =>
                rw [mapped] at failed
                cases failed
                rfl
          obtain ⟨position, item, isItem, fails, before⟩ := induction failedLater
          refine ⟨position + 1, item, isItem, fails, ?_⟩
          intro earlier other isEarlier isOther
          cases earlier with
          | zero =>
              cases isOther
              exact ⟨image, isFirst⟩
          | succ earlier => exact before earlier other (Nat.lt_of_succ_lt_succ isEarlier) isOther

end ConfigGraph
