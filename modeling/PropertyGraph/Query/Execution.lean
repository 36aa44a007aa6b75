import PropertyGraph.Graph.Dump
import PropertyGraph.Query.Reading

/-!
# Answering queries

The answer to a query is a graph of its own: a copy of every node that some pattern of the plan
matches, with label and properties but without edges.
-/

namespace PropertyGraph.Query

namespace Plan

/-- The filters of all patterns. -/
def filters (p : Plan) : List Filter := p.patterns.map Pattern.filter

/-- Goes through nodes and copies each that some filter selects into a graph, except one whose
uid is that of a node already copied; `seen` holds the uids of those. -/
def gather (filters : List Filter) (seen : TextSet) (result : Store) :
    List Node → Except GraphError Store
  | [] => .ok result
  | n :: rest =>
    if seen.contains n.uid then gather filters seen result rest
    else if filters.any (·.acceptsNode n) then
      match result.addNode n.uid n.label n.properties with
      | .ok (_, result) => gather filters (seen.add n.uid) result rest
      | .error e => .error e
    else gather filters seen result rest

/-- Copies the nodes that some pattern matches into a graph of their own. A plan without patterns
looks at no node. -/
def execute (p : Plan) (s : Store) : Except GraphError Store :=
  if p.filters.isEmpty then .ok .empty else gather p.filters .empty .empty s.nodes.values

end Plan

end PropertyGraph.Query

namespace PropertyGraph

open Query

/-- Answers a query text from a graph. -/
def Store.query (s : Store) (text : String) : Except QueryError Store := do
  let plan ← Plan.read text
  (plan.execute s).mapError .graph

end PropertyGraph
