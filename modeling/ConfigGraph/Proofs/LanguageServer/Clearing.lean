import ConfigGraph.Proofs.LanguageServer.History

/-!
# What an editor does not show

A list with diagnostics is not shown any more when a validation of another document clears it, although
the last load of its own document still reports it.  Nothing else hides it.
-/

namespace ConfigGraph

open Publication

namespace Validation

variable {directory : Text} {completed earlier : List Validation} {validation : Validation}
  {path uri : Text}

/-- A validation of another document clears a path, and none reports on it since.  It lists the path
because it is that of its own document, or because the validation of that document before has reported
on it. -/
def ClearedElsewhere (directory : Text) (completed : List Validation) (uri path : Text) : Prop :=
  ∃ newer clearing earlier, completed = newer ++ clearing :: earlier ∧
    clearing.uri ≠ uri ∧ clearing.publication.get path = [] ∧
    (Path.ofUri directory clearing.uri = .ok path ∨
      ∃ previous, latest? earlier clearing.uri = some previous ∧
        previous.publication.get path ≠ []) ∧
    ∀ later ∈ newer, later.publication.get path = []

theorem visible_of_mentions (distinct : validation.publication.Distinct)
    (listed : validation.publication.mentions path = true) :
    visible (· == path) (validation :: earlier) = validation.publication.get path := by
  rw [visible, last?_cons]
  cases found : validation.publication.reverse.find? fun entry => entry.1 == path with
  | some entry =>
      obtain ⟨member, isPath⟩ := of_find?_reverse (· == path) found
      obtain rfl : entry.1 = path := beq_iff_eq.mp isPath
      exact (distinct.get_of_mem member).symm
  | none =>
      obtain ⟨entry, member, isPath⟩ := List.mem_map.mp (mentions_iff.mp listed)
      exact absurd (beq_iff_eq.mpr isPath)
        (List.find?_eq_none.mp found entry (List.mem_reverse.mpr member))

theorem visible_of_not_mentions (absent : ¬validation.publication.mentions path = true) :
    visible (· == path) (validation :: earlier) = visible (· == path) earlier := by
  have none : (validation.publication.reverse.find? fun entry => entry.1 == path) = none := by
    rw [List.find?_eq_none]
    intro entry member isPath
    exact absent (List.any_eq_true.mpr ⟨entry, List.mem_reverse.mp member, isPath⟩)
  rw [visible, last?_cons, none]
  rfl

/-- A path that is cleared stays without diagnostics until a validation reports on it. -/
theorem visible_of_clearedElsewhere (chained : Chained directory completed)
    (cleared : ClearedElsewhere directory completed uri path) :
    visible (· == path) completed = [] := by
  obtain ⟨newer, clearing, earlier, rfl, _, isEmpty, because, silent⟩ := cleared
  induction newer with
  | nil =>
      cases chained with
      | cons _ follows =>
          have listed := (follows.mentions_iff path).mpr (.inr because)
          exact (visible_of_mentions follows.distinct listed).trans isEmpty
  | cons later newer induction =>
      obtain ⟨laterSilent, silent⟩ := List.forall_mem_cons.mp silent
      cases chained with
      | cons chained follows =>
          by_cases listed : later.publication.mentions path = true
          · exact (visible_of_mentions follows.distinct listed).trans laterSilent
          · exact (visible_of_not_mentions listed).trans (induction chained silent)

/-- What the last validation of a document reports is only hidden by one of another document that
clears it. -/
theorem clearedElsewhere_of_visible (chained : Chained directory completed)
    (isLatest : latest? completed uri = some validation)
    (reports : validation.publication.get path ≠ [])
    (isEmpty : visible (· == path) completed = []) :
    ClearedElsewhere directory completed uri path := by
  -- The last validation has cleared the path itself, or leaves it as it was before.
  induction chained with
  | nil => cases isLatest
  | @cons last earlier chained follows induction =>
      have otherDocument : last.publication.get path = [] → last.uri ≠ uri := by
        rintro silent rfl
        rw [latest?_cons_self] at isLatest
        cases isLatest
        exact reports silent
      by_cases listed : last.publication.mentions path = true
      · have silent : last.publication.get path = [] :=
          (visible_of_mentions follows.distinct listed).symm.trans isEmpty
        rcases (follows.mentions_iff path).mp listed with loud | because
        · exact absurd silent loud
        · exact ⟨[], last, earlier, rfl, otherDocument silent, silent, because,
            List.forall_mem_nil _⟩
      · have silent := get_of_not_mentions listed
        rw [latest?_cons_of_ne (otherDocument silent)] at isLatest
        rw [visible_of_not_mentions listed] at isEmpty
        obtain ⟨newer, clearing, older, rfl, isOther, cleared, because, laterSilent⟩ :=
          induction isLatest isEmpty
        exact ⟨last :: newer, clearing, older, rfl, isOther, cleared, because,
          List.forall_mem_cons.mpr ⟨silent, laterSilent⟩⟩

end Validation

namespace Editor

/-- When diagnostics are shown.

Let the last validation of a document have reported something on a path, in a history of changes of
files and of validations that are completed.  Then diagnostics are shown for the path just if no
validation of another document has cleared it, without one since that reports on it. -/
theorem view_ne_nil_iff {limits : Load.Limits} {disk : Disk} {steps : List Step} {editor : Editor}
    (ran : run? limits steps (start disk) = some editor) {uri path : Text} {validation : Validation}
    (isLatest : Validation.latest? editor.completed uri = some validation)
    (reports : validation.publication.get path ≠ []) :
    editor.view path ≠ [] ↔
      ¬Validation.ClearedElsewhere editor.disk.directory editor.completed uri path := by
  have chained := ((consistent_start disk).run ran).chained
  constructor
  · intro nonempty cleared
    exact nonempty (Validation.visible_of_clearedElsewhere chained cleared)
  · intro notCleared isEmpty
    exact notCleared (Validation.clearedElsewhere_of_visible chained isLatest reports isEmpty)

/-- Two documents import a broken one, and then one of them does not import it any more. -/
def sharedImport : List Step :=
  [.validate "file:///work/a.cairn" "import \"s.cairn\"",
    .validate "file:///work/b.cairn" "import \"s.cairn\"", .validate "file:///work/a.cairn" "1"]

/-- The diagnostics of the broken document are cleared although the other document still needs it. -/
theorem cleared_while_reported :
    ∃ editor validation, run? ⟨10, 10⟩ sharedImport (start brokenImport) = some editor ∧
      Validation.latest? editor.completed "file:///work/b.cairn" = some validation ∧
      validation.publication.get "/work/s.cairn" ≠ [] ∧ editor.view "/work/s.cairn" = [] := by
  obtain ⟨editor, validation, ran, isLatest, checked⟩ := @exists_of_any ⟨10, 10⟩ sharedImport
    (start brokenImport) "file:///work/b.cairn"
    (fun editor validation => decide (validation.publication.get "/work/s.cairn" ≠ [] ∧
      editor.view "/work/s.cairn" = [])) (by decide +kernel)
  exact ⟨editor, validation, ran, isLatest, of_decide_eq_true checked⟩

theorem view_ne_nil_iff_sharedImport :
    (∃ editor, run? ⟨10, 10⟩ sharedImport (start brokenImport) = some editor ∧
      Validation.ClearedElsewhere "/work" editor.completed "file:///work/b.cairn" "/work/s.cairn") ∧
    ∃ editor, run? ⟨10, 10⟩ (sharedImport.take 2) (start brokenImport) = some editor ∧
      ¬Validation.ClearedElsewhere "/work" editor.completed "file:///work/b.cairn"
        "/work/s.cairn" := by
  constructor
  · obtain ⟨editor, validation, ran, isLatest, checked⟩ := @exists_of_any ⟨10, 10⟩ sharedImport
      (start brokenImport) "file:///work/b.cairn"
      (fun editor validation => decide (editor.disk.directory = "/work" ∧
        validation.publication.get "/work/s.cairn" ≠ [] ∧ editor.view "/work/s.cairn" = []))
      (by decide +kernel)
    obtain ⟨isDirectory, reports, isEmpty⟩ := of_decide_eq_true checked
    refine ⟨editor, ran, Classical.byContradiction fun notCleared => ?_⟩
    exact (view_ne_nil_iff ran isLatest reports).mpr (isDirectory ▸ notCleared) isEmpty
  · obtain ⟨editor, validation, ran, isLatest, checked⟩ := @exists_of_any ⟨10, 10⟩
      (sharedImport.take 2) (start brokenImport) "file:///work/b.cairn"
      (fun editor validation => decide (editor.disk.directory = "/work" ∧
        validation.publication.get "/work/s.cairn" ≠ [] ∧ editor.view "/work/s.cairn" ≠ []))
      (by decide +kernel)
    obtain ⟨isDirectory, reports, nonempty⟩ := of_decide_eq_true checked
    refine ⟨editor, ran, ?_⟩
    exact isDirectory ▸ (view_ne_nil_iff ran isLatest reports).mp nonempty

end Editor

end ConfigGraph
