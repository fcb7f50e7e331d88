import ConfigGraph.Path
import Mathlib.Data.List.DropRight

/-!
# Absolute paths

What lies below an absolute path is absolute again, so the directory from which relative paths are
seen makes no difference to it.
-/

namespace ConfigGraph.Path

theorem eq_cons_of_isAbsolute {path : Text} (absolute : isAbsolute path = true) :
    ∃ rest, path = slash :: rest := by
  cases path with
  | nil => cases absolute
  | cons code rest =>
      have isSlash : code = slash := by simpa [isAbsolute] using absolute
      exact ⟨rest, by rw [isSlash]⟩

theorem isAbsolute_append {path : Text} (absolute : isAbsolute path = true) (rest : Text) :
    isAbsolute (path ++ rest) = true := by
  obtain ⟨others, rfl⟩ := eq_cons_of_isAbsolute absolute
  rfl

/-- A prefix of an absolute path is absolute, unless it is empty. -/
theorem isAbsolute_of_prefix {path start : Text} (absolute : isAbsolute path = true)
    (isStart : start <+: path) (nonempty : start ≠ []) : isAbsolute start = true := by
  obtain ⟨rest, rfl⟩ := isStart
  cases start with
  | nil => exact absurd rfl nonempty
  | cons code start => exact absolute

theorem isAbsolute_join {directory : Text} (absolute : isAbsolute directory = true)
    (path : Text) : isAbsolute (join directory path) = true := by
  unfold join
  split_ifs with already
  · exact already
  · exact isAbsolute_append absolute _
  · exact isAbsolute_append absolute _

theorem isAbsolute_parent {path : Text} (absolute : isAbsolute path = true) :
    isAbsolute (parent path) = true := by
  have notAll : path.rdropWhile (· != slash) ≠ [] := by
    obtain ⟨rest, rfl⟩ := eq_cons_of_isAbsolute absolute
    rw [ne_eq, List.rdropWhile_eq_nil_iff]
    intro noSlash
    simpa using noSlash slash List.mem_cons_self
  have leading := isAbsolute_of_prefix absolute (List.rdropWhile_prefix _ path) notAll
  change isAbsolute (if (path.rdropWhile (· != slash)).all (· == slash)
    then path.rdropWhile (· != slash)
    else (path.rdropWhile (· != slash)).rdropWhile (· == slash)) = true
  split_ifs with allSlashes
  · exact leading
  · refine isAbsolute_of_prefix leading (List.rdropWhile_prefix _ _) ?_
    rw [ne_eq, List.rdropWhile_eq_nil_iff]
    simpa using allSlashes

theorem absolute_of_isAbsolute (directory : Text) {path : Text}
    (isAbsolute : isAbsolute path = true) : absolute directory path = normalize path := by
  rw [absolute, join, if_pos isAbsolute]

end ConfigGraph.Path
