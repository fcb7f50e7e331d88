import ConfigGraph.Host

/-!
# Documents in memory

A host whose documents are given with their paths.  An import is resolved against the directory of
the document in which it stands, and must lead to one of the given paths.
-/

namespace ConfigGraph.Host

/-- The error of a path that is not among the given ones. -/
def noSuchDocument (path : Text) : LoadError :=
  .ofTexts .fetch .cannotFetchText [("resolved_path", path), ("reason", "no such document")]
    (some path) none

/-- The host of the given documents. -/
def memory (documents : List (Text × Text)) : Host Unit where
  resolve resolution state :=
    let target := Path.absolute (resolution.directory []) resolution.written
    let reply :=
      if documents.any fun document => document.1 == target then Reply.answer target
      else .refused (notFound resolution.written)
    ⟨reply, state, []⟩
  fetch path state :=
    let reply :=
      match documents.find? fun document => document.1 == path with
      | some document => Reply.answer document.2
      | none => .refused (noSuchDocument path)
    ⟨reply, state, []⟩
  report _ state := ⟨(), state, []⟩

end ConfigGraph.Host
