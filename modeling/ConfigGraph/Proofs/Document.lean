import ConfigGraph.Proofs.Cursor
import ConfigGraph.Proofs.Grammar.Spans
import ConfigGraph.Proofs.Yaml.Rooted

/-!
# Documents that were read

The tree of a document in the configuration language has its spans inside the text, and its imports
one behind the other.  Documents in other formats are data.
-/

namespace ConfigGraph

theorem parseExpr_of_parseDocument {source : Source} {format : DocumentFormat} {tree : Expr}
    (parsed : parseDocument source format = .ok (.expr tree)) :
    parseExpr source.text = .ok tree := by
  cases format with
  | cairn =>
      simp only [parseDocument] at parsed
      cases read : parseExpr source.text with
      | error fault =>
          rw [read] at parsed
          cases parsed
      | ok tree =>
          rw [read] at parsed
          cases parsed
          rfl
  | json | yaml =>
      simp only [parseDocument] at parsed
      split at parsed <;> cases parsed

/-- There is no function in the data of a document. -/
theorem rooted_of_parseDocument {documents : List Document} {source : Source}
    {format : DocumentFormat} {value : Value}
    (parsed : parseDocument source format = .ok (.data value)) : value.Rooted documents := by
  cases format with
  | cairn =>
      simp only [parseDocument] at parsed
      split at parsed <;> cases parsed
  | json =>
      simp only [parseDocument] at parsed
      split at parsed
      · cases parsed
        exact Value.rooted_ofJson _
      · cases parsed
  | yaml =>
      simp only [parseDocument] at parsed
      split at parsed
      case h_1 decoded =>
        cases parsed
        exact Yaml.rooted_decode decoded
      case h_2 => cases parsed

/-! ## Spans -/

theorem nodes_inside_of_parseDocument {source : Source} {format : DocumentFormat} {tree : Expr}
    (parsed : parseDocument source format = .ok (.expr tree)) {node : Expr.Node}
    (member : node ∈ tree.nodes) : node.span.Inside source.text := by
  have placed := Grammar.placed_of_parseExpr (parseExpr_of_parseDocument parsed)
  obtain ⟨_, nonempty, stop⟩ := placed.inside node member
  exact ⟨Nat.le_of_lt nonempty, stop⟩

/-- Imports one behind the other, inside of a text. -/
structure SitesIn (text : Text) (sites : List Expr.ImportSite) : Prop where
  inside : ∀ site ∈ sites, site.span.start < site.span.stop ∧ site.span.stop ≤ text.length
  ordered : sites.Pairwise fun before behind => before.span.stop ≤ behind.span.start

theorem SitesIn.span_inside {text : Text} {sites : List Expr.ImportSite}
    (sitesIn : SitesIn text sites) {site : Expr.ImportSite} (member : site ∈ sites) :
    site.span.Inside text := by
  obtain ⟨nonempty, stop⟩ := sitesIn.inside site member
  exact ⟨Nat.le_of_lt nonempty, stop⟩

/-- No two imports of a document have the same span. -/
theorem SitesIn.nodup_spans {text : Text} {sites : List Expr.ImportSite}
    (sitesIn : SitesIn text sites) : (sites.map (·.span)).Nodup := by
  rw [List.Nodup, List.pairwise_map]
  apply List.Pairwise.imp_of_mem ?_ sitesIn.ordered
  intro before behind _ isBehind ordered same
  have nonempty := (sitesIn.inside behind isBehind).1
  rw [same] at ordered
  omega

/-- An import of a document is found by its span. -/
theorem SitesIn.index_unique {text : Text} {sites : List Expr.ImportSite}
    (sitesIn : SitesIn text sites) {first second : Nat} {site other : Expr.ImportSite}
    (found : sites[first]? = some site) (alsoFound : sites[second]? = some other)
    (same : site.span = other.span) : first = second := by
  obtain ⟨inside, _⟩ := List.getElem?_eq_some_iff.mp found
  have inMap : first < (sites.map (·.span)).length := by
    rw [List.length_map]
    exact inside
  apply (List.getElem?_inj inMap sitesIn.nodup_spans).mp
  rw [List.getElem?_map, List.getElem?_map, found, alsoFound, Option.map_some, Option.map_some,
    same]

/-- The imports of a document that was read are one behind the other. -/
theorem sitesIn_of_parseDocument {source : Source} {format : DocumentFormat} {content : Content}
    (parsed : parseDocument source format = .ok content) :
    SitesIn source.text content.imports := by
  cases content with
  | data value => exact ⟨List.forall_mem_nil _, .nil⟩
  | expr tree =>
      have placed := Grammar.placed_of_parseExpr (parseExpr_of_parseDocument parsed)
      refine ⟨fun site member => ?_, placed.imports⟩
      obtain ⟨node, isNode, found⟩ := List.mem_filterMap.mp member
      rw [Grammar.Placed.span_of_import? found]
      exact (placed.inside node isNode).2

end ConfigGraph
