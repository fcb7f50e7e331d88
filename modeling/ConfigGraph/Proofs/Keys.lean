import Mathlib.Data.List.Find
import Mathlib.Data.List.Nodup
import Mathlib.Data.List.Perm.Subperm

/-!
# Entries with keys

Where no key comes twice, an entry is found by its key.  An entry that takes the place of the one with
its key, or else comes behind all others, adds its key to theirs.
-/

namespace ConfigGraph.Keys

variable {α β : Type} {key : α → β}

theorem nodup_behind {keys : List β} {key : β} (distinct : keys.Nodup) (new : key ∉ keys) :
    (keys ++ [key]).Nodup := by
  rw [← List.concat_eq_append]
  exact distinct.concat new

/-- The keys of entries that come first are not that of one behind them. -/
theorem notMem_of_nodup {known entries : List α} {entry : α}
    (distinct : ((known ++ entry :: entries).map key).Nodup) : key entry ∉ known.map key := by
  rw [List.map_append] at distinct
  exact fun old => (List.nodup_append.mp distinct).2.2 _ old _ List.mem_cons_self rfl

theorem find?_eq_some_iff {entries : List α} (distinct : (entries.map key).Nodup)
    {wanted : β} {isWanted : α → Bool} (same : ∀ entry, isWanted entry = true ↔ key entry = wanted)
    {entry : α} : entries.find? isWanted = some entry ↔ entry ∈ entries ∧ key entry = wanted := by
  constructor
  · intro found
    exact ⟨List.mem_of_find?_eq_some found, (same entry).mp (List.find?_some found)⟩
  · rintro ⟨member, rfl⟩
    cases found : entries.find? isWanted with
    | none => exact absurd ((same entry).mpr rfl) (List.find?_eq_none.mp found entry member)
    | some other =>
        have isOther := List.mem_of_find?_eq_some found
        have sameKey := (same other).mp (List.find?_some found)
        rw [List.inj_on_of_nodup_map distinct isOther member sameKey]

/-- Entries of the same number that are found among others with a relation to them are all of the
others. -/
theorem related_iff {γ : Type} {lefts rights : List (β × γ)}
    (distinctLefts : (lefts.map Prod.fst).Nodup) (distinctRights : (rights.map Prod.fst).Nodup)
    (related : γ → γ → Prop) :
    (lefts.length = rights.length ∧
        ∀ left ∈ lefts, ∃ right ∈ rights, right.1 = left.1 ∧ related left.2 right.2) ↔
      (∀ key, key ∈ lefts.map Prod.fst ↔ key ∈ rights.map Prod.fst) ∧
        ∀ key left right, (key, left) ∈ lefts → (key, right) ∈ rights → related left right := by
  constructor
  · rintro ⟨sameLength, found⟩
    have subset : lefts.map Prod.fst ⊆ rights.map Prod.fst := by
      intro key isKey
      obtain ⟨left, isLeft, rfl⟩ := List.mem_map.mp isKey
      obtain ⟨right, isRight, same, _⟩ := found left isLeft
      rw [← same]
      exact List.mem_map_of_mem isRight
    have permuted : (lefts.map Prod.fst).Perm (rights.map Prod.fst) :=
      (distinctLefts.subperm subset).perm_of_length_le (by simp [sameLength])
    refine ⟨fun key => permuted.mem_iff, ?_⟩
    intro key left right isLeft isRight
    obtain ⟨other, isOther, same, isRelated⟩ := found (key, left) isLeft
    rw [List.inj_on_of_nodup_map distinctRights isOther isRight same] at isRelated
    exact isRelated
  · rintro ⟨sameKeys, allRelated⟩
    have permuted : (lefts.map Prod.fst).Perm (rights.map Prod.fst) :=
      (List.perm_ext_iff_of_nodup distinctLefts distinctRights).mpr sameKeys
    refine ⟨by simpa using permuted.length_eq, ?_⟩
    rintro ⟨key, left⟩ isLeft
    obtain ⟨⟨_, right⟩, isRight, rfl⟩ :=
      List.mem_map.mp ((sameKeys key).mp (List.mem_map_of_mem isLeft))
    exact ⟨_, isRight, rfl, allRelated _ left right isLeft isRight⟩

/-- A key comes to the others behind one that is not the same. -/
theorem perm_insert_cons [BEq β] [LawfulBEq β] {keys more : List β} {key other : β}
    (differs : other ≠ key) (added : more.Perm (keys.insert key)) :
    (other :: more).Perm ((other :: keys).insert key) := by
  refine (added.cons other).trans ?_
  by_cases known : key ∈ keys
  · rw [List.insert_of_mem known, List.insert_of_mem (List.mem_cons_of_mem _ known)]
  · have new : key ∉ other :: keys := List.not_mem_cons_of_ne_of_not_mem differs.symm known
    rw [List.insert_of_not_mem known, List.insert_of_not_mem new]
    exact .swap key other keys

/-- What is found once an entry has taken the place of all with its key. -/
theorem find?_cons_filter [BEq β] [LawfulBEq β] [DecidableEq β] (key wanted : β) (value : α)
    (entries : List (β × α)) :
    ((key, value) :: entries.filter fun entry => entry.1 != key).find?
        (fun entry => entry.1 == wanted) =
      if wanted = key then some (key, value) else entries.find? fun entry => entry.1 == wanted := by
  by_cases same : wanted = key
  · simp [same]
  · have differs : (key == wanted) = false := beq_eq_false_iff_ne.mpr fun equal => same equal.symm
    rw [List.find?_cons, differs, List.find?_filter, if_neg same]
    refine List.find?_congr fun entry _ => ?_
    by_cases isWanted : entry.1 = wanted
    · simp [isWanted, same]
    · simp [isWanted]

end ConfigGraph.Keys
