import ConfigGraph.Crawl
import ConfigGraph.Evaluation

/-!
# Loading an entry

A load reads all documents that its entry leads to, evaluates the entry, and gives the value to the
host as plain data.
-/

namespace ConfigGraph.Load

variable {σ : Type}

/-- Bounds on a load. -/
structure Limits where
  /-- The number of paths that are visited. -/
  visits : Nat
  /-- The depth of evaluation. -/
  depth : Nat

/-- Evaluates a document of the store, with nothing remembered. -/
def evaluate (depth : Nat) (path : Text) : Load σ Value := do
  match ((Evaluation.ofPath depth (← get).store path).perform .start).1 with
  | .ok value => return value
  | .error failure => throw failure

/-- Loads an entry: reads all documents that it leads to, evaluates it, and gives the plain data of
its value. -/
def load (limits : Limits) (host : Host σ) (entry : Text) : Load σ Json := do
  crawl limits.visits host entry
  match (← evaluate limits.depth entry).toJson with
  | .ok json =>
      report (.loaded entry (← get).store.size)
      return json
  | .error error => fail error

end ConfigGraph.Load
