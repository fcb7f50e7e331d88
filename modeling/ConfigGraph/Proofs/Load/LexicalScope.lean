import ConfigGraph.Proofs.Evaluation.LexicalScope
import ConfigGraph.Proofs.Load.Closure

/-!
# Lexical scope after crawls

Crawls leave closed stores behind, so expressions of the documents that they read see of a scope the
names that are free in them, and no others.
-/

namespace ConfigGraph.Load

open Evaluation

/-- Names mean what they mean where they are written, if no document compares values.

Take any session in which documents were evaluated one after another while others are being
evaluated.  An expression of a document has the same outcomes in any two scopes that give its free
names the same values.  Calls of functions that have the same code, and to whose free names the
scopes where they were made give the same values, have the same outcomes for the same arguments,
whatever the scopes of the calls are.  A `let` that binds a name that is not free in its body has
the outcomes of the body, if its value is given.  In each case values are equal if they are made at
the same place, and else equal but for marks of floats that are no numbers. -/
theorem lexical_scope {entries : List Text} {exchanges : List Exchange} {store : Store}
    {first : Session} (used : Used entries exchanges store first)
    (compareless : ∀ document ∈ store.documents, ∀ tree, document.content = .expr tree →
      tree.Avoids Expr.isComparison)
    {active : List Text} {runs : List (Text × Except Failure Value)} {session : Session}
    (inTurn : InTurn store ⟨[], active⟩ runs session) :
    (∀ {site otherSite : Site} {source : Source} {scope otherScope : Scope} {expr : Expr},
      StandsIn store.documents source expr →
      SeesSame store.documents expr.Free scope otherScope →
      SameOutcomes (site = otherSite) (ComesTo store session site source scope expr)
        (ComesTo store session otherSite source otherScope expr)) ∧
    (∀ {site otherSite : Site} {source otherSource : Source} {scope otherScope : Scope}
      {span otherSpan : Span} {callee otherCallee : Expr} {arguments otherArguments : List Expr}
      {origin otherOrigin : Origin} {parameters : List Text} {body : Expr}
      {closure otherClosure : Scope} {home : Source} {values : List Value},
      Calls store session site source scope callee arguments
        (.function origin parameters body closure home) values →
      Calls store session otherSite otherSource otherScope otherCallee otherArguments
        (.function otherOrigin parameters body otherClosure home) values →
      values.length = parameters.length →
      (∀ value ∈ values, value.Rooted store.documents) →
      StandsIn store.documents home body →
      SeesSame store.documents (fun name => name ∉ parameters ∧ body.Free name) closure
        otherClosure →
      SameOutcomes (site = otherSite)
        (ComesTo store session site source scope (.call span callee arguments))
        (ComesTo store session otherSite otherSource otherScope
          (.call otherSpan otherCallee otherArguments))) ∧
    (∀ {site otherSite : Site} {source : Source} {scope otherScope : Scope} {span : Span}
      {name : Text} {value body : Expr} {given : Value},
      ComesTo store session (site.step 0) source scope value (.ok given) →
      ¬body.Free name →
      StandsIn store.documents source body →
      SeesSame store.documents body.Free scope otherScope →
      SameOutcomes (site.step 1 = otherSite)
        (ComesTo store session site source scope (.letIn span name value body))
        (ComesTo store session otherSite source otherScope body)) := by
  obtain ⟨_, settles, _⟩ := used.settles
  have closed := settles.store_closed
  have remembers := inTurn.remembers closed (List.forall_mem_nil _)
  have sound := (inTurn.continues (sound_during store active)).sound
  refine ⟨?_, ?_, ?_⟩
  · intro site otherSite source scope otherScope expr standsIn seesSame
    exact sameOutcomes_of_seesSame closed compareless remembers standsIn seesSame
  · intro site otherSite source otherSource scope otherScope span otherSpan callee otherCallee
      arguments otherArguments origin otherOrigin parameters body closure otherClosure home values
      calls otherCalls sameLength rooted standsIn seesSame
    simp only [SameOutcomes, comesTo_call sound calls sameLength,
      comesTo_call sound otherCalls sameLength]
    have given : List.Forall₂ (fun value other => value = other ∧ value.Rooted store.documents)
        values values :=
      List.forall₂_same.mpr fun value isValue => ⟨rfl, rooted value isValue⟩
    exact (sameOutcomes_of_seesSame closed compareless remembers standsIn
      (.bind sameLength given seesSame)).imp (congrArg (Site.step · 1))
  · intro site otherSite source scope otherScope span name value body given gives notFree standsIn
      seesSame
    simp only [SameOutcomes, comesTo_letIn sound gives]
    exact sameOutcomes_of_seesSame closed compareless remembers standsIn
      (seesSame.cons_of_not notFree given)

/-- A document whose value is a function that uses a name of its surroundings. -/
def capturing : Host Unit := .memory [("/a.cairn", "let y = 1 in fun x => [x, y]")]

/-- The call with a number of what has a name. -/
def callOf (name : Text) : Expr :=
  .call ⟨0, 4⟩ (.identifier ⟨0, 1⟩ name) [.number ⟨2, 3⟩ (.int 2)]

def takesOne : Except Failure Value → Bool
  | .ok (.function _ [_] _ _ _) => true
  | _ => false

theorem of_takesOne {result : Except Failure Value} (takes : takesOne result = true) :
    ∃ origin parameter body closure home,
      result = .ok (.function origin [parameter] body closure home) := by
  unfold takesOne at takes
  split at takes
  · exact ⟨_, _, _, _, _, rfl⟩
  · cases takes

theorem calls_callOf (store : Store) {scope : Scope} {name : Text} {function : Value}
    (found : Scope.value? scope name = some function) :
    Calls store .start ⟨"/b.cairn", []⟩ ⟨"/b.cairn", "f(2)"⟩ scope (.identifier ⟨0, 1⟩ name)
      [.number ⟨2, 3⟩ (.int 2)] function [.int 2] :=
  ⟨comesTo_identifier found, .cons ⟨nofun, 1, rfl⟩ .nil⟩

/-- The function is called in a scope that gives the name another value, and in one without it. -/
theorem lexical_scope_capturing :
    ∃ exchanges store function after, Used ["/a.cairn"] exchanges store .start ∧
      Evaluation.Ends store .start "/a.cairn" (.ok function) after ∧
      SameOutcomes True
        (ComesTo store .start ⟨"/b.cairn", []⟩ ⟨"/b.cairn", "f(2)"⟩
          [("y", .null), ("f", function)] (callOf "f"))
        (ComesTo store .start ⟨"/b.cairn", []⟩ ⟨"/b.cairn", "f(2)"⟩ [("g", function)]
          (callOf "g")) := by
  have crawled : (perform (crawl 1 capturing "/a.cairn") (.start ())).1.isOk = true := by
    decide +kernel
  have used := Used.crawl .fresh (perform_of_isOk crawled)
  have compareless : ∀ document ∈
      (perform (crawl 1 capturing "/a.cairn") (.start ())).2.store.documents,
      ∀ tree, document.content = .expr tree → tree.Avoids Expr.isComparison := by
    decide +kernel
  have known : (perform (crawl 1 capturing "/a.cairn") (.start ())).2.store.contains
      "/a.cairn" = true := by
    decide +kernel
  have takes : takesOne (Evaluation.perform (ofPath 3
      (perform (crawl 1 capturing "/a.cairn") (.start ())).2.store "/a.cairn") .start).1 = true := by
    decide +kernel
  generalize (perform (crawl 1 capturing "/a.cairn") (.start ())).2.store = store
    at used compareless known takes
  obtain ⟨origin, parameter, body, closure, home, evaluated⟩ := of_takesOne takes
  obtain ⟨_, settles, _⟩ := used.settles
  have safe := safe_ofPath settles.store_closed 3 known .start (List.forall_mem_nil _)
  rcases performed : Evaluation.perform (ofPath 3 store "/a.cairn") .start with ⟨result, after⟩
  rw [performed] at evaluated safe
  cases evaluated
  obtain ⟨standsIn, closureRooted⟩ := Value.rooted_function.mp safe.1
  have seesSame (names : Text → Prop) : SeesSame store.documents names closure closure :=
    Scope.agree_self (fun binding isBinding => ⟨rfl, closureRooted binding isBinding⟩) names
  obtain ⟨_, calls_same, _⟩ := lexical_scope used compareless (.nil : InTurn _ ⟨[], []⟩ _ _)
  refine ⟨_, store, _, after, used, ⟨nofun, 3, performed⟩, ?_⟩
  refine (calls_same (calls_callOf store rfl) (calls_callOf store rfl) rfl ?_ standsIn
    (seesSame _)).imp fun _ => rfl
  exact List.forall_mem_singleton.mpr (Value.rooted_of_plain rfl rfl)

end ConfigGraph.Load
