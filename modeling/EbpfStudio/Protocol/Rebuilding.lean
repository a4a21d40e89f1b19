/-
This file is about graphs with the same nodes and edges that were built in different orders.

The order of a graph's lists is the order of the calls that were accepted. A well-formed graph is
accepted again when its nodes and then its edges are added, for each prefix of it is well formed. So
the graphs that can be built are exactly the well-formed ones, and a permutation of a graph can be
built too and has the same links.
-/

import EbpfStudio.Protocol.Graph

namespace EbpfStudio

namespace IoTransactionGraph

open Relation Run List

section Accepting

variable {graph : IoTransactionGraph}

theorem findNode_of_mem (nodeIds : (graph.nodes.map (·.nodeId)).Nodup) {node : IoNode}
    (member : node ∈ graph.nodes) : graph.findNode node.nodeId = some node := by
  cases found : graph.findNode node.nodeId with
  | none =>
    have absent := find?_eq_none.mp found node member
    simp at absent
  | some other =>
    obtain ⟨otherMember, same⟩ := findNode_eq_some found
    rw [inj_on_of_nodup_map nodeIds otherMember member same]

theorem addNode_of_wellFormed {node : IoNode}
    (wellFormed : ({ graph with nodes := graph.nodes ++ [node] } : IoTransactionGraph).WellFormed) :
    (graph.addNode node).1 = { graph with nodes := graph.nodes ++ [node] } := by
  have ordered := wellFormed.times node mem_concat_self
  have fresh : ¬ (graph.nodes.any fun value => value.nodeId = node.nodeId) = true := by
    intro taken
    obtain ⟨other, member, same⟩ := any_eq_true.mp taken
    have ids := wellFormed.nodeIds
    rw [map_append, nodup_append] at ids
    exact ids.2.2 _ (mem_map_of_mem member) _ (by simp) (of_decide_eq_true same)
  unfold addNode
  rw [if_neg (not_lt.mpr ordered), if_neg fresh]

theorem addEdge_of_wellFormed {edge : IoEdge}
    (wellFormed : ({ graph with edges := graph.edges ++ [edge] } : IoTransactionGraph).WellFormed) :
    (graph.addEdge edge).1 = { graph with edges := graph.edges ++ [edge] } := by
  have fresh : ¬ (graph.edges.any fun value => value.edgeId = edge.edgeId) = true := by
    intro taken
    obtain ⟨other, member, same⟩ := any_eq_true.mp taken
    have ids := wellFormed.edgeIds
    rw [map_append, nodup_append] at ids
    exact ids.2.2 _ (mem_map_of_mem member) _ (by simp) (of_decide_eq_true same)
  obtain ⟨source, sourceMember, target, targetMember, sourceId, targetId, ordered⟩ :=
    wellFormed.endpoints edge mem_concat_self
  have foundSource := findNode_of_mem wellFormed.nodeIds sourceMember
  have foundTarget := findNode_of_mem wellFormed.nodeIds targetMember
  have acyclic := wellFormed.acyclic
  rw [links_append] at acyclic
  have open_ : ¬ (edge.fromNodeId = edge.toNodeId ∨
      graph.reachable edge.toNodeId edge.fromNodeId = true) := by
    intro closes
    refine acyclic edge.fromNodeId (Arcs.cycle_withArc ?_)
    rcases closes with same | reached
    · rw [same]
    · exact (graph.reachable_iff _ _).mp reached
  unfold addEdge
  rw [if_neg fresh, ← sourceId, show graph.findNode source.nodeId = some source from foundSource,
    ← targetId, show graph.findNode target.nodeId = some target from foundTarget]
  dsimp only
  rw [if_neg (not_lt.mpr ordered), sourceId, targetId, if_neg open_]

end Accepting

section Building

variable {transactionId : U64} {nodes : List IoNode} {edges : List IoEdge}

theorem WellFormed.withoutEdge {edge : IoEdge}
    (wellFormed : WellFormed ⟨transactionId, nodes, edges ++ [edge]⟩) :
    WellFormed ⟨transactionId, nodes, edges⟩ where
  nodeIds := wellFormed.nodeIds
  edgeIds := wellFormed.edgeIds.sublist ((sublist_append_left _ _).map _)
  times := wellFormed.times
  endpoints other member := wellFormed.endpoints other (mem_append_left _ member)
  acyclic node cycle := by
    refine wellFormed.acyclic node (TransGen.mono ?_ _ _ cycle)
    rintro first second ⟨other, member, ends⟩
    exact ⟨other, mem_append_left _ member, ends⟩

theorem WellFormed.withoutNode {node : IoNode}
    (wellFormed : WellFormed ⟨transactionId, nodes ++ [node], []⟩) :
    WellFormed ⟨transactionId, nodes, []⟩ where
  nodeIds := wellFormed.nodeIds.sublist ((List.sublist_append_left _ _).map _)
  edgeIds := nodup_nil
  times other member := wellFormed.times other (mem_append_left _ member)
  endpoints edge member := by cases member
  acyclic := wellFormed.acyclic

theorem build_snoc (calls : List Call) (call : Call) :
    build transactionId (calls ++ [call]) = ((build transactionId calls).apply call).1 :=
  run_snoc _ _ calls call

theorem build_nodes (wellFormed : WellFormed ⟨transactionId, nodes, []⟩) :
    build transactionId (nodes.map .addNode) = ⟨transactionId, nodes, []⟩ := by
  induction nodes using reverseRecOn with
  | nil => rfl
  | append_singleton nodes node hypothesis =>
    rw [map_append, map_singleton, build_snoc, hypothesis wellFormed.withoutNode]
    exact addNode_of_wellFormed wellFormed

theorem build_edges (wellFormed : WellFormed ⟨transactionId, nodes, edges⟩) :
    build transactionId (nodes.map .addNode ++ edges.map .addEdge) =
      ⟨transactionId, nodes, edges⟩ := by
  induction edges using reverseRecOn with
  | nil =>
    rw [map_nil, append_nil]
    exact build_nodes wellFormed
  | append_singleton edges edge hypothesis =>
    rw [map_append, map_singleton, ← append_assoc, build_snoc,
      hypothesis wellFormed.withoutEdge]
    exact addEdge_of_wellFormed wellFormed

/-- The graphs that calls build are the well-formed ones. Each of them is built again by the
calls for its own nodes and then its edges, none of which is refused. -/
theorem wellFormed_iff_exists_build (graph : IoTransactionGraph) :
    (graph.WellFormed ↔ ∃ calls, build graph.transactionId calls = graph) ∧
      (graph.WellFormed → build graph.transactionId
        (graph.nodes.map .addNode ++ graph.edges.map .addEdge) = graph) := by
  refine ⟨⟨fun wellFormed => ⟨_, build_edges wellFormed⟩, ?_⟩, build_edges⟩
  rintro ⟨calls, same⟩
  exact same ▸ wellFormed_build _ calls

end Building

structure SameContents (graph other : IoTransactionGraph) : Prop where
  nodes : graph.nodes.Perm other.nodes
  edges : graph.edges.Perm other.edges

namespace SameContents

variable {graph other : IoTransactionGraph} (same : graph.SameContents other)

include same

theorem links_eq : graph.Links = other.Links := by
  funext first second
  exact propext (exists_congr fun edge => and_congr_left fun _ => same.edges.mem_iff)

theorem wellFormed (wellFormed : other.WellFormed) : graph.WellFormed where
  nodeIds := ((same.nodes.map _).nodup_iff).mpr wellFormed.nodeIds
  edgeIds := ((same.edges.map _).nodup_iff).mpr wellFormed.edgeIds
  times node member := wellFormed.times node (same.nodes.mem_iff.mp member)
  endpoints edge member := by
    obtain ⟨source, sourceMember, target, targetMember, facts⟩ :=
      wellFormed.endpoints edge (same.edges.mem_iff.mp member)
    exact ⟨source, same.nodes.mem_iff.mpr sourceMember, target,
      same.nodes.mem_iff.mpr targetMember, facts⟩
  acyclic := by
    rw [same.links_eq]
    exact wellFormed.acyclic

theorem findNode_eq (wellFormed : other.WellFormed) (nodeId : U64) :
    graph.findNode nodeId = other.findNode nodeId := by
  cases found : other.findNode nodeId with
  | none =>
    refine find?_eq_none.mpr fun node member => ?_
    exact find?_eq_none.mp found node (same.nodes.mem_iff.mp member)
  | some node =>
    obtain ⟨member, rfl⟩ := findNode_eq_some found
    exact findNode_of_mem (same.wellFormed wellFormed).nodeIds (same.nodes.mem_iff.mpr member)

end SameContents

end IoTransactionGraph

end EbpfStudio
