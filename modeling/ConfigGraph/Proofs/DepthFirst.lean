import Mathlib.Data.List.Basic

/-!
# Depth-first search

A search from a node visits it and then searches from each node that comes next to it, in order,
unless that has been visited.  A worklist does the same without recursion: it takes up the node in
front, and puts the nodes that come next to it before the others.  Nodes that have been visited, or
that are in the list further in front, can be left out of the list whenever one likes
(`Works.searches`).
-/

namespace ConfigGraph

variable {α : Type}

/-- Searches from a node: what has been visited, in order, with the node and all that is found from
it.  The depth bounds how far the search goes down. -/
def depthFirst [DecidableEq α] (next : α → List α) : Nat → List α → α → List α
  | 0, visited, _ => visited
  | depth + 1, visited, node =>
      if node ∈ visited then visited
      else (next node).foldl (depthFirst next depth) (visited ++ [node])

/-- Searches from one node after another lead from what has been visited before to what has been
visited behind them. -/
inductive Searches (next : α → List α) : List α → List α → List α → Prop where
  | nil {visited : List α} : Searches next visited [] visited
  | skip {visited nodes after : List α} {node : α} :
      node ∈ visited →
      Searches next visited nodes after →
      Searches next visited (node :: nodes) after
  | visit {visited middle nodes after : List α} {node : α} :
      node ∉ visited →
      Searches next (visited ++ [node]) (next node) middle →
      Searches next middle nodes after →
      Searches next visited (node :: nodes) after

/-- A worklist is worked off.  A node can be dropped from any place if it has been visited or comes
further in front. -/
inductive Works (next : α → List α) : List α → List α → List α → Prop where
  | done {visited : List α} : Works next visited [] visited
  | drop {visited front nodes after : List α} {node : α} :
      node ∈ visited ++ front →
      Works next visited (front ++ nodes) after →
      Works next visited (front ++ node :: nodes) after
  | visit {visited nodes after : List α} {node : α} :
      node ∉ visited →
      Works next (visited ++ [node]) (next node ++ nodes) after →
      Works next visited (node :: nodes) after

variable {next : α → List α} {visited nodes others after : List α}

/-! ## Searches -/

theorem Searches.isPrefix (searches : Searches next visited nodes after) : visited <+: after := by
  induction searches with
  | nil => exact List.prefix_rfl
  | skip _ _ induction => exact induction
  | visit _ _ _ inside behind =>
      exact (List.prefix_append _ _).trans (inside.trans behind)

/-- All nodes that are searched from have been visited in the end. -/
theorem Searches.mem (searches : Searches next visited nodes after) :
    ∀ node ∈ nodes, node ∈ after := by
  induction searches with
  | nil => exact List.forall_mem_nil _
  | skip isVisited rest induction =>
      exact List.forall_mem_cons.mpr ⟨rest.isPrefix.subset isVisited, induction⟩
  | visit _ inside rest _ behind =>
      refine List.forall_mem_cons.mpr ⟨rest.isPrefix.subset (inside.isPrefix.subset ?_), behind⟩
      exact List.mem_append_right _ List.mem_cons_self

theorem searches_append :
    Searches next visited (nodes ++ others) after ↔
      ∃ middle, Searches next visited nodes middle ∧ Searches next middle others after := by
  induction nodes generalizing visited with
  | nil =>
      constructor
      · exact fun searches => ⟨visited, .nil, searches⟩
      · rintro ⟨middle, ⟨⟩, searches⟩
        exact searches
  | cons node nodes induction =>
      constructor
      · rintro (_ | ⟨isVisited, rest⟩ | ⟨isNew, inside, rest⟩)
        · obtain ⟨middle, first, second⟩ := induction.mp rest
          exact ⟨middle, .skip isVisited first, second⟩
        · obtain ⟨middle, first, second⟩ := induction.mp rest
          exact ⟨middle, .visit isNew inside first, second⟩
      · rintro ⟨middle, (_ | ⟨isVisited, rest⟩ | ⟨isNew, inside, rest⟩), behind⟩
        · exact .skip isVisited (induction.mpr ⟨middle, rest, behind⟩)
        · exact .visit isNew inside (induction.mpr ⟨middle, rest, behind⟩)

theorem Searches.unique {other : List α} (searches : Searches next visited nodes after)
    (otherSearches : Searches next visited nodes other) : after = other := by
  induction searches generalizing other with
  | nil =>
      cases otherSearches
      rfl
  | skip isVisited _ induction =>
      cases otherSearches with
      | skip _ rest => exact induction rest
      | visit isNew => exact absurd isVisited isNew
  | visit isNew _ _ insideInduction induction =>
      cases otherSearches with
      | skip isVisited => exact absurd isVisited isNew
      | visit _ inside rest =>
          obtain rfl := insideInduction inside
          exact induction rest

/-- The searches are those of `depthFirst`, if it can go down as often as nodes are visited. -/
theorem Searches.foldl_depthFirst [DecidableEq α] (searches : Searches next visited nodes after)
    {depth : Nat} (enough : after.length ≤ visited.length + depth) :
    nodes.foldl (depthFirst next depth) visited = after := by
  induction searches generalizing depth with
  | nil => rfl
  | @skip visited nodes after node isVisited _ induction =>
      have stays : depthFirst next depth visited node = visited := by
        cases depth with
        | zero => rfl
        | succ depth => exact if_pos isVisited
      rw [List.foldl_cons, stays]
      exact induction enough
  | @visit visited middle nodes after node isNew inside rest insideInduction induction =>
      have longer := inside.isPrefix.length_le
      have longest := rest.isPrefix.length_le
      rw [List.length_append, List.length_singleton] at longer
      cases depth with
      | zero => omega
      | succ depth =>
          have found : depthFirst next (depth + 1) visited node = middle := by
            refine (if_neg isNew).trans (insideInduction ?_)
            rw [List.length_append, List.length_singleton]
            omega
          rw [List.foldl_cons, found]
          exact induction (by omega)

/-! ## Worklists -/

/-- Whenever nodes are dropped from it, a worklist does what searches from its nodes do. -/
theorem Works.searches (works : Works next visited nodes after) :
    Searches next visited nodes after := by
  induction works with
  | done => exact .nil
  | @drop visited front nodes after node known _ induction =>
      obtain ⟨middle, first, second⟩ := searches_append.mp induction
      refine searches_append.mpr ⟨middle, first, .skip ?_ second⟩
      rcases List.mem_append.mp known with isVisited | isInFront
      · exact first.isPrefix.subset isVisited
      · exact first.mem node isInFront
  | visit isNew _ induction =>
      obtain ⟨middle, first, second⟩ := searches_append.mp induction
      exact .visit isNew first second

/-- Nodes that have been visited can be left out behind others. -/
theorem Works.of_filter_behind {keep : α → Bool}
    (left : ∀ node ∈ nodes, ¬keep node → node ∈ visited) {front : List α}
    (works : Works next visited (front ++ (nodes.filter keep ++ others)) after) :
    Works next visited (front ++ (nodes ++ others)) after := by
  induction nodes generalizing front with
  | nil => exact works
  | cons node nodes induction =>
      obtain ⟨first, rest⟩ := List.forall_mem_cons.mp left
      by_cases isKept : keep node
      · rw [List.filter_cons_of_pos isKept, List.cons_append, List.append_cons] at works
        have whole := induction rest works
        rwa [← List.append_cons, ← List.cons_append] at whole
      · rw [List.filter_cons_of_neg isKept] at works
        exact .drop (List.mem_append_left _ (first isKept)) (induction rest works)

/-- Nodes that have been visited can be left out from the beginning. -/
theorem Works.of_filter {keep : α → Bool} (left : ∀ node ∈ nodes, ¬keep node → node ∈ visited)
    (works : Works next visited (nodes.filter keep ++ others) after) :
    Works next visited (nodes ++ others) after := by
  have behind : Works next visited ([] ++ (nodes.filter keep ++ others)) after := works
  exact behind.of_filter_behind left

end ConfigGraph
