import ConfigGraph.Proofs.Load.Order

/-!
# Crawls end

A crawl goes around once for each path that it takes up.  Every path but the entry was put into the
list for an import of a document that the crawl has stored, so it goes around no more often than
there are imports in these documents, and once more (`Iterates.length_le`).  With documents in
memory only those that are given can be stored, each of them once, and so every crawl ends, whatever
was stored before.
-/

namespace ConfigGraph.Load

variable {σ : Type}

/-! ## Going around -/

/-- How often a crawl goes around to take up the paths that are left, until there is none or a visit
fails, and what it comes to.  There is no bound on it. -/
inductive Iterates (host : Host σ) :
    Nat → List Text → LoadState σ → Except Failure Unit → LoadState σ → Prop where
  | done {state : LoadState σ} : Iterates host 0 [] state (.ok ⟨⟩) state
  | failed {path : Text} {paths : List Text} {failure : Failure} {before after : LoadState σ} :
      perform (visit host path) before = (.error failure, after) →
      Iterates host 1 (path :: paths) before (.error failure) after
  | next {count : Nat} {path : Text} {paths discovered : List Text}
      {before middle after : LoadState σ} {result : Except Failure Unit} :
      perform (visit host path) before = (.ok discovered, middle) →
      Iterates host count (discovered.reverse ++ paths) middle result after →
      Iterates host (count + 1) (path :: paths) before result after

variable {host : Host σ} {count bound : Nat} {paths : List Text} {before after : LoadState σ}
  {result : Except Failure Unit}

/-- A bound that is large enough changes nothing. -/
theorem Iterates.visitAll_of_le (iterates : Iterates host count paths before result after)
    (enough : count ≤ bound) :
    perform (visitAll host bound paths) before = (result, after) := by
  induction iterates generalizing bound with
  | done => cases bound <;> rfl
  | failed performed =>
      obtain ⟨smaller, rfl⟩ := Nat.exists_eq_add_of_le' enough
      unfold visitAll
      rw [perform_bind, performed]
  | next performed _ induction =>
      obtain ⟨smaller, rfl⟩ := Nat.exists_eq_add_of_le' enough
      unfold visitAll
      rw [perform_bind, performed]
      exact induction (Nat.le_add_left _ smaller)

/-- With a smaller bound the crawl lacks visits. -/
theorem Iterates.visitAll_of_lt (iterates : Iterates host count paths before result after)
    (short : bound < count) :
    (perform (visitAll host bound paths) before).1 = .error (.fault .unending) := by
  induction iterates generalizing bound with
  | done => cases short
  | failed performed =>
      cases Nat.lt_one_iff.mp short
      rfl
  | next performed _ induction =>
      cases bound with
      | zero => rfl
      | succ bound =>
          unfold visitAll
          rw [perform_bind, performed]
          exact induction (Nat.lt_of_succ_lt_succ short)

theorem Iterates.crawl_of_le {entry : Text}
    (iterates : Iterates host count [entry] before result after) (enough : count ≤ bound) :
    (perform (crawl bound host entry) before).1 = result ∧
      (perform (crawl bound host entry) before).2.store = after.store := by
  unfold crawl
  rw [perform_bind, iterates.visitAll_of_le enough]
  cases result with
  | error failure => exact ⟨rfl, rfl⟩
  | ok value => exact ⟨rfl, rfl⟩

theorem Iterates.crawl_of_lt {entry : Text}
    (iterates : Iterates host count [entry] before result after) (short : bound < count) :
    (perform (crawl bound host entry) before).1 = .error (.fault .unending) := by
  have unending := iterates.visitAll_of_lt short
  unfold crawl
  rw [perform_bind]
  rcases performed : perform (visitAll host bound [entry]) before with ⟨failure | value, last⟩
  · rw [performed] at unending
    exact congrArg Except.error (Except.error.inj unending)
  · rw [performed] at unending
    cases unending

/-! ## Paths that are put into the list -/

/-- Each path that is discovered is that of an import. -/
theorem length_of_resolveImports (host : Host σ) (owner : Text) (cursor : Cursor)
    (sites : List Expr.ImportSite) (before : LoadState σ) {discovered : List Text}
    (resolved : (perform (resolveImports host owner cursor sites) before).1 = .ok discovered) :
    discovered.length ≤ sites.length := by
  induction sites generalizing cursor before discovered with
  | nil =>
      cases resolved
      exact le_rfl
  | cons site sites induction =>
      unfold resolveImports at resolved
      rcases ranged : cursor.range? (some site.span) with ⟨misstep | range, next⟩
      · rw [ranged] at resolved
        cases resolved
      · rw [ranged] at resolved
        dsimp only at resolved
        rw [perform_bind] at resolved
        rcases performed : perform (resolveImport host owner range site) before with
          ⟨failure | target, middle⟩
        · rw [performed] at resolved
          cases resolved
        · rw [performed] at resolved
          dsimp only at resolved
          rw [perform_bind, perform_get] at resolved
          dsimp only at resolved
          rw [perform_bind] at resolved
          rcases goesOn : perform (resolveImports host owner next sites) middle with
            ⟨failure | others, last⟩
          · rw [goesOn] at resolved
            cases resolved
          · have shorter := induction next middle (congrArg Prod.fst goesOn)
            rw [goesOn] at resolved
            cases resolved
            split
            · exact Nat.le_succ_of_le shorter
            · exact Nat.succ_le_succ shorter

/-- The imports of some documents. -/
def importsOf (documents : List Document) : List Expr.ImportSite :=
  documents.flatMap fun document => document.content.imports

/-- What a visit stores, and how many paths it puts into the list: no more than there are imports in
what it stores. -/
theorem visit_stores (host : Host σ) (path : Text) (before : LoadState σ) :
    ∃ more, (perform (visit host path) before).2.store.documents = before.store.documents ++ more ∧
      ∀ discovered, (perform (visit host path) before).1 = .ok discovered →
        discovered.length ≤ (importsOf more).length := by
  cases known : before.store.contains path with
  | true =>
      rw [visit_of_contains host known]
      refine ⟨[], (List.append_nil _).symm, ?_⟩
      rintro _ ⟨⟩
      exact le_rfl
  | false =>
      rw [visit_of_new host known, perform_bind]
      obtain ⟨log, ⟨text, content, _, _, read⟩ | ⟨failure, _, read⟩⟩ :=
        perform_readDocument host known
      · rw [read]
        refine ⟨[newDocument before.store path text content], ?_, fun discovered resolved => ?_⟩
        · exact resolveImports_documents host path _ _ _
        · have fewer := length_of_resolveImports host path _ _ _ resolved
          rwa [importsOf, List.flatMap_singleton]
      · rw [read]
        exact ⟨[], (List.append_nil _).symm, nofun⟩

/-- A crawl goes around once for each path that it was given, and for each import in the documents
that it stores at most once. -/
theorem Iterates.length_le (iterates : Iterates host count paths before result after) :
    ∃ more, after.store.documents = before.store.documents ++ more ∧
      count ≤ paths.length + (importsOf more).length := by
  induction iterates with
  | done => exact ⟨[], (List.append_nil _).symm, le_rfl⟩
  | @failed path paths failure before after performed =>
      obtain ⟨more, stored, _⟩ := visit_stores host path before
      rw [performed] at stored
      refine ⟨more, stored, ?_⟩
      rw [List.length_cons]
      omega
  | @next count path paths discovered before middle after result performed _ induction =>
      obtain ⟨first, stored, fewer⟩ := visit_stores host path before
      obtain ⟨others, further, atMost⟩ := induction
      rw [performed] at stored fewer
      have new := fewer discovered rfl
      refine ⟨first ++ others, ?_, ?_⟩
      · rw [further, stored, List.append_assoc]
      · rw [List.length_append, List.length_reverse] at atMost
        rw [importsOf, List.flatMap_append, List.length_append, List.length_cons]
        unfold importsOf at new atMost
        omega

/-! ## Documents in memory -/

/-- Taking up one path after another ends. -/
theorem exists_iterates (documents : List (Text × Text)) (paths : List Text)
    (before : LoadState Unit) :
    ∃ count result after, Iterates (.memory documents) count paths before result after := by
  generalize isAgenda : (⟨paths, before⟩ : Agenda Unit) = agenda
  induction agenda using (visits_wellFounded documents).induction generalizing paths before with
  | _ agenda induction =>
      subst isAgenda
      cases paths with
      | nil => exact ⟨0, _, before, .done⟩
      | cons path paths =>
          rcases performed : perform (visit (.memory documents) path) before with
            ⟨failure | discovered, middle⟩
          · exact ⟨1, _, middle, .failed performed⟩
          · have first : Visits (.memory documents) ⟨path ::ₘ paths, before⟩
                ⟨discovered + paths, middle⟩ := .pick performed
            have same : (discovered + paths : Multiset Text) =
                (discovered.reverse ++ paths : List Text) := by
              rw [← Multiset.coe_add, Multiset.coe_reverse]
            rw [same] at first
            obtain ⟨count, result, after, rest⟩ := induction _ first _ middle rfl
            exact ⟨count + 1, result, after, .next performed rest⟩

/-- Every crawl of documents in memory ends.

Whatever was stored before, by crawls that succeeded or by others, and whatever the imports are, the
crawl of an entry goes around a number of times that is at most one more than the number of imports
in the documents that it adds to the store.  Any bound that is at least that number lets it come to
its result, and any smaller one is too small. -/
theorem crawl_ends (documents : List (Text × Text)) (entry : Text) (before : LoadState Unit) :
    ∃ count result last more,
      Iterates (.memory documents) count [entry] before result last ∧
      last.store.documents = before.store.documents ++ more ∧
      count ≤ (importsOf more).length + 1 ∧
      (∀ bound, count ≤ bound →
        (perform (crawl bound (.memory documents) entry) before).1 = result ∧
        (perform (crawl bound (.memory documents) entry) before).2.store = last.store) ∧
      ∀ bound, bound < count →
        (perform (crawl bound (.memory documents) entry) before).1 =
          .error (.fault .unending) := by
  obtain ⟨count, result, last, iterates⟩ := exists_iterates documents [entry] before
  obtain ⟨more, stored, atMost⟩ := iterates.length_le
  refine ⟨count, result, last, more, iterates, stored, ?_, fun bound enough =>
    iterates.crawl_of_le enough, fun bound short => iterates.crawl_of_lt short⟩
  rwa [List.length_singleton, Nat.add_comm] at atMost

end ConfigGraph.Load
