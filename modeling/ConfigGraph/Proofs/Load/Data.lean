import ConfigGraph.Proofs.Load.Taxonomy
import ConfigGraph.Proofs.Value.Json

/-!
# Loading documents of data

The load of a JSON document fetches its text, and gives the data that the text holds.
-/

namespace ConfigGraph.Load

variable {σ : Type} {host : Host σ} {path text : Text} {initial : σ} {json : Json}

/-- A JSON document that comes first. -/
def documentOfJson (path text : Text) (json : Json) : Document :=
  ⟨⟨path, text⟩, .json, .data (.ofJson json), 0⟩

theorem crawl_json (isJson : DocumentFormat.ofPath path = .json)
    (fetched : (host.fetch path initial).reply = .answer text)
    (decoded : Json.decode text = .ok json) {visits : Nat} (enough : 0 < visits) :
    (perform (crawl visits host path) (.start initial)).1 = .ok ⟨⟩ ∧
      (perform (crawl visits host path) (.start initial)).2.store =
        ⟨[documentOfJson path text json], []⟩ := by
  obtain ⟨bound, rfl⟩ := Nat.exists_eq_add_one.mpr enough
  have content : parseDocument ⟨path, text⟩ .json = .ok (.data (.ofJson json)) := by
    simp only [parseDocument, decoded]
  unfold crawl visitAll
  rw [perform_bind, perform_bind, visit_of_new host rfl]
  unfold readDocument fetchText
  simp only [perform_bind, perform_report, perform_ask, LoadState.start, fetched, isJson,
    perform_pure, content]
  cases bound <;> exact ⟨rfl, rfl⟩

/-- A JSON document is evaluated to its data. -/
theorem ofPath_documentOfJson (depth : Nat) (path text : Text) (json : Json) :
    ((Evaluation.ofPath depth ⟨[documentOfJson path text json], []⟩ path).perform .start).1 =
      .ok (.ofJson json) := by
  have found : Store.find? ⟨[documentOfJson path text json], []⟩ path =
      some (documentOfJson path text json) := by
    simp [Store.find?, documentOfJson, Document.path]
  rw [Evaluation.ofPath, Evaluation.ofDocument, Evaluation.perform_bind, Evaluation.perform_get]
  dsimp only
  rw [found]
  rfl

/-- A JSON document with data that are legible loads as the data. -/
theorem load_json (isJson : DocumentFormat.ofPath path = .json)
    (fetched : (host.fetch path initial).reply = .answer text)
    (decoded : Json.decode text = .ok json) (legible : json.Legible) {limits : Limits}
    (enough : 0 < limits.visits) :
    (perform (load limits host path) (.start initial)).1 = .ok json := by
  obtain ⟨succeeded, stored⟩ := crawl_json isJson fetched decoded enough
  rw [perform_load]
  rcases crawled : perform (crawl limits.visits host path) (.start initial) with ⟨_ | _, after⟩
  · rw [crawled] at succeeded
    cases succeeded
  · rw [crawled] at stored
    have isStored : after.store = ⟨[documentOfJson path text json], []⟩ := stored
    unfold resultOf
    dsimp only
    rw [isStored, ofPath_documentOfJson]
    dsimp only
    rw [Value.toJson, Value.plain_ofJson legible]
    rfl

end ConfigGraph.Load
