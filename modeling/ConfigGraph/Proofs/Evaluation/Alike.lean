import ConfigGraph.Proofs.Evaluation.Perform
import ConfigGraph.Proofs.Keys

/-!
# Evaluation in stores that are alike

An evaluation looks documents and imports up by their paths and spans.  It does not see in which
order they came, nor the numbers of the documents.
-/

namespace ConfigGraph

/-- What is read from a document: all of it but its number. -/
def Document.reading (document : Document) : Source × DocumentFormat × Content :=
  (document.source, document.format, document.content)

/-- Stores whose documents and imports may come in another order, and then have other numbers. -/
structure Store.Alike (store other : Store) : Prop where
  documents : (store.documents.map Document.reading).Perm (other.documents.map Document.reading)
  targets : ∀ key, store.target? key = other.target? key

namespace Store

variable {store other : Store}

/-- No two documents have the same path. -/
def Distinct (store : Store) : Prop := (store.documents.map Document.path).Nodup

theorem Distinct.find?_eq_some_iff (distinct : store.Distinct) {path : Text}
    {document : Document} :
    store.find? path = some document ↔ document ∈ store.documents ∧ document.path = path :=
  Keys.find?_eq_some_iff distinct fun _ => decide_eq_true_iff

theorem Alike.symm (alike : store.Alike other) : other.Alike store :=
  ⟨alike.documents.symm, fun key => (alike.targets key).symm⟩

theorem Alike.find?_eq_some (alike : store.Alike other) (distinct : store.Distinct)
    (otherDistinct : other.Distinct) {path : Text} {document : Document}
    (found : store.find? path = some document) :
    ∃ twin, other.find? path = some twin ∧ twin.reading = document.reading := by
  obtain ⟨member, rfl⟩ := distinct.find?_eq_some_iff.mp found
  have isReading := alike.documents.mem_iff.mp (List.mem_map_of_mem member)
  obtain ⟨twin, isTwin, same⟩ := List.mem_map.mp isReading
  have samePath : twin.path = document.path := congrArg (·.1.path) same
  exact ⟨twin, otherDistinct.find?_eq_some_iff.mpr ⟨isTwin, samePath⟩, same⟩

/-- The documents of a path have the same reading. -/
theorem Alike.find? (alike : store.Alike other) (distinct : store.Distinct)
    (otherDistinct : other.Distinct) (path : Text) :
    (store.find? path).map Document.reading = (other.find? path).map Document.reading := by
  apply Option.ext
  intro reading
  constructor
  · intro isReading
    obtain ⟨document, found, rfl⟩ := Option.map_eq_some_iff.mp isReading
    obtain ⟨twin, isTwin, same⟩ := alike.find?_eq_some distinct otherDistinct found
    exact Option.map_eq_some_iff.mpr ⟨twin, isTwin, same⟩
  · intro isReading
    obtain ⟨document, found, rfl⟩ := Option.map_eq_some_iff.mp isReading
    obtain ⟨twin, isTwin, same⟩ := alike.symm.find?_eq_some otherDistinct distinct found
    exact Option.map_eq_some_iff.mpr ⟨twin, isTwin, same⟩

end Store

namespace Evaluation

variable {store other : Store}

/-- The evaluation of documents, if that of expressions does not depend on their numbers. -/
theorem ofDocument_congr
    (found : ∀ path, (store.find? path).map Document.reading =
      (other.find? path).map Document.reading)
    (evaluate : Source → Expr → Evaluation Value) (path : Text) :
    ofDocument store (fun document => evaluate document.source) path =
      ofDocument other (fun document => evaluate document.source) path := by
  unfold ofDocument
  congr 1
  funext session
  cases session.value? path with
  | some value => rfl
  | none =>
      have same := found path
      cases isFound : store.find? path with
      | none =>
          rw [isFound] at same
          rw [Option.map_eq_none_iff.mp same.symm]
      | some document =>
          rw [isFound] at same
          obtain ⟨twin, isTwin, sameReading⟩ := Option.map_eq_some_iff.mp same.symm
          rw [isTwin]
          have sameSource : twin.source = document.source := congrArg (·.1) sameReading
          have sameContent : twin.content = document.content := congrArg (·.2.2) sameReading
          dsimp only
          rw [sameSource, sameContent]

theorem ofExpr_congr (targets : ∀ key, store.target? key = other.target? key)
    (found : ∀ path, (store.find? path).map Document.reading =
      (other.find? path).map Document.reading)
    (depth : Nat) : ofExpr depth store = ofExpr depth other := by
  induction depth with
  | zero => rfl
  | succ depth induction =>
      have sameTarget (key : ImportKey) : store.target key = other.target key := by
        rw [Store.target, targets key, Store.target]
      have sameDocument (path : Text) : ofTarget depth store path = ofTarget depth other path := by
        unfold ofTarget
        rw [induction]
        exact ofDocument_congr found (fun source => ofExpr depth other ⟨source.path, []⟩ source [])
          path
      funext site source scope expr
      cases expr with
      | importOf span path =>
          rw [ofExpr_importOf, ofExpr_importOf, sameTarget]
          congr 1
          funext target
          exact sameDocument target
      | _ => simp only [ofExpr, induction]

/-- Evaluation gives the same in stores that are alike. -/
theorem ofPath_congr (alike : store.Alike other) (distinct : store.Distinct)
    (otherDistinct : other.Distinct) (depth : Nat) (path : Text) :
    ofPath depth store path = ofPath depth other path := by
  have found := alike.find? distinct otherDistinct
  unfold ofPath
  rw [ofExpr_congr alike.targets found depth]
  exact ofDocument_congr found (fun source => ofExpr depth other ⟨source.path, []⟩ source []) path

end Evaluation

end ConfigGraph
