import ConfigGraph.Diagnostic
import ConfigGraph.Proofs.Keys

/-!
# Diagnostics by path

A publication lists each of its paths once.  What a load reports has diagnostics for all of its paths;
a path that is only mentioned has none.
-/

namespace ConfigGraph.Publication

variable {publication : Publication} {path other : Text} {diagnostics : List Diagnostic}

theorem mentions_iff : publication.mentions path = true ↔ path ∈ publication.map (·.1) := by
  simp [mentions]

theorem get_of_not_mentions (absent : ¬publication.mentions path = true) :
    publication.get path = [] := by
  have noEntry : (publication.find? fun entry => entry.1 == path) = none := by
    rw [List.find?_eq_none]
    intro entry member same
    exact absent (List.any_eq_true.mpr ⟨entry, member, same⟩)
  rw [get, noEntry]
  rfl

theorem mem_of_get_ne_nil (nonempty : publication.get path ≠ []) :
    (path, publication.get path) ∈ publication := by
  cases found : publication.find? fun entry => entry.1 == path with
  | none => exact absurd (by rw [get, found]; rfl) nonempty
  | some entry =>
      have isGiven : publication.get path = entry.2 := by
        rw [get, found]
        rfl
      have isPath : entry.1 = path := by simpa using List.find?_some found
      rw [isGiven, ← isPath]
      exact List.mem_of_find?_eq_some found

theorem mentions_of_get_ne_nil (nonempty : publication.get path ≠ []) :
    publication.mentions path = true :=
  mentions_iff.mpr (List.mem_map_of_mem (mem_of_get_ne_nil nonempty))

/-- No path is listed twice. -/
def Distinct (publication : Publication) : Prop := (publication.map (·.1)).Nodup

theorem Distinct.get_of_mem (distinct : publication.Distinct)
    (member : (path, diagnostics) ∈ publication) : publication.get path = diagnostics := by
  have found := (Keys.find?_eq_some_iff distinct fun _ => beq_iff_eq).mpr ⟨member, rfl⟩
  rw [get, found]
  rfl

theorem mem_reportedPaths (distinct : publication.Distinct) :
    path ∈ publication.reportedPaths ↔ publication.get path ≠ [] := by
  unfold reportedPaths
  constructor
  · intro reported
    obtain ⟨⟨own, listed⟩, member, rfl⟩ := List.mem_map.mp reported
    obtain ⟨isEntry, nonempty⟩ := List.mem_filter.mp member
    rw [distinct.get_of_mem isEntry]
    simpa using nonempty
  · intro nonempty
    refine List.mem_map.mpr ⟨_, List.mem_filter.mpr ⟨mem_of_get_ne_nil nonempty, ?_⟩, rfl⟩
    simpa using nonempty

/-! ## Adding diagnostics -/

theorem paths_push (publication : Publication) (path : Text) (diagnostic : Diagnostic) :
    ((publication.push path diagnostic).map (·.1)).Perm ((publication.map (·.1)).insert path) := by
  induction publication with
  | nil => exact .refl _
  | cons entry entries induction =>
      rw [push]
      split
      case isTrue same =>
        subst same
        simp
      case isFalse differs => exact Keys.perm_insert_cons differs induction

/-- What a load reports: no path is listed twice, or without diagnostics. -/
structure Report (publication : Publication) : Prop where
  distinct : publication.Distinct
  nonempty : ∀ entry ∈ publication, entry.2 ≠ []

theorem nonempty_push (nonempty : ∀ entry ∈ publication, entry.2 ≠ []) (path : Text)
    (diagnostic : Diagnostic) : ∀ entry ∈ publication.push path diagnostic, entry.2 ≠ [] := by
  induction publication with
  | nil => simp [push]
  | cons entry entries induction =>
      obtain ⟨first, others⟩ := List.forall_mem_cons.mp nonempty
      rw [push]
      split
      case isTrue => exact List.forall_mem_cons.mpr ⟨by simp, others⟩
      case isFalse => exact List.forall_mem_cons.mpr ⟨first, induction others⟩

theorem Report.push (report : publication.Report) (path : Text) (diagnostic : Diagnostic) :
    (publication.push path diagnostic).Report where
  distinct := (paths_push publication path diagnostic).nodup_iff.mpr report.distinct.insert
  nonempty := nonempty_push report.nonempty path diagnostic

theorem report_ofNotices (notices : List Notice) : (ofNotices notices).Report := by
  have folded {publication : Publication} (report : publication.Report) :
      (notices.foldl (fun publication notice => publication.push notice.path (.ofNotice notice))
        publication).Report := by
    induction notices generalizing publication with
    | nil => exact report
    | cons notice notices induction => exact induction (report.push _ _)
  exact folded ⟨List.nodup_nil, List.forall_mem_nil _⟩

theorem Report.get_ne_nil_iff (report : publication.Report) :
    publication.get path ≠ [] ↔ publication.mentions path = true := by
  refine ⟨mentions_of_get_ne_nil, fun mentioned => ?_⟩
  obtain ⟨⟨own, listed⟩, member, rfl⟩ := List.mem_map.mp (mentions_iff.mp mentioned)
  rw [report.distinct.get_of_mem member]
  exact report.nonempty _ member

/-! ## Mentioning paths -/

theorem mentions_mention :
    (publication.mention path).mentions other = true ↔
      publication.mentions other = true ∨ other = path := by
  unfold mention
  split
  case isTrue known =>
    refine ⟨.inl, fun either => either.elim id ?_⟩
    rintro rfl
    exact known
  case isFalse => simp [mentions_iff]

theorem Distinct.mention (distinct : publication.Distinct) (path : Text) :
    (publication.mention path).Distinct := by
  unfold Publication.mention
  split
  case isTrue => exact distinct
  case isFalse new =>
    rw [mentions_iff] at new
    unfold Distinct
    rw [List.map_append]
    exact Keys.nodup_behind distinct new

theorem get_mention (publication : Publication) (path other : Text) :
    (publication.mention path).get other = publication.get other := by
  unfold mention
  split
  case isTrue => rfl
  case isFalse =>
    unfold get
    rw [List.find?_append]
    cases publication.find? fun entry => entry.1 == other with
    | some entry => rfl
    | none =>
        rw [Option.none_or, List.find?_singleton]
        split <;> rfl

theorem mentions_foldl_mention {paths : List Text} :
    (paths.foldl mention publication).mentions other = true ↔
      publication.mentions other = true ∨ other ∈ paths := by
  induction paths generalizing publication with
  | nil => simp
  | cons path paths induction =>
      rw [List.foldl_cons, induction, mentions_mention, List.mem_cons, or_assoc]

theorem Distinct.foldl_mention (distinct : publication.Distinct) (paths : List Text) :
    (paths.foldl Publication.mention publication).Distinct := by
  induction paths generalizing publication with
  | nil => exact distinct
  | cons path paths induction => exact induction (distinct.mention path)

theorem get_foldl_mention (publication : Publication) (paths : List Text) (other : Text) :
    (paths.foldl mention publication).get other = publication.get other := by
  induction paths generalizing publication with
  | nil => rfl
  | cons path paths induction => rw [List.foldl_cons, induction, get_mention]

end ConfigGraph.Publication
