/-
This file proves that the confidence of a file origin is that of the widest path.

The confidence of a path is that of its weakest edge. Visits of the search correspond to paths, with
the weakest confidence on the way, and the strongest visit of a file is kept. So an origin has the
confidence of the best path from any node of its file.
-/

import EbpfStudio.Protocol.OriginOrder

namespace EbpfStudio

open Relation Worklist

namespace IoTransactionGraph

def IsPath (graph : IoTransactionGraph) : U64 → List IoEdge → U64 → Prop
  | source, [], target => source = target
  | source, edge :: rest, target =>
    edge ∈ graph.edges ∧ edge.fromNodeId = source ∧ graph.IsPath edge.toNodeId rest target

def weakestOn (path : List IoEdge) : EdgeConfidence :=
  path.foldr (fun edge weakest => weakest.weakest edge.confidence) .exact

def capFor (graph : IoTransactionGraph) (nodeId : U64) (confidence : EdgeConfidence) :
    EdgeConfidence :=
  if graph.pathInferred nodeId then confidence.weakest .probable else confidence

section Paths

variable {graph : IoTransactionGraph} {nodeId : U64}

theorem visited_iff_isPath {source : U64} {confidence : EdgeConfidence} :
    graph.Visited nodeId (source, confidence) ↔
      ∃ path, graph.IsPath source path nodeId ∧ weakestOn path = confidence := by
  constructor
  · intro visited
    generalize reached : (source, confidence) = visit at visited
    induction visited generalizing source confidence with
    | refl =>
      cases reached
      exact ⟨[], rfl, rfl⟩
    | tail _ linked hypothesis =>
      obtain ⟨edge, member, into, same⟩ := linked
      obtain ⟨path, leads, weakest⟩ := hypothesis rfl
      rw [same, Prod.mk.injEq] at reached
      rw [← into] at leads
      refine ⟨edge :: path, ⟨member, reached.1.symm, leads⟩, ?_⟩
      rw [reached.2, ← weakest]
      rfl
  · rintro ⟨path, leads, rfl⟩
    induction path generalizing source with
    | nil =>
      rw [show source = nodeId from leads]
      exact ReflTransGen.refl
    | cons edge rest hypothesis =>
      obtain ⟨member, from_, leads⟩ := leads
      exact (hypothesis leads).tail ⟨edge, member, rfl, Prod.ext from_.symm rfl⟩

structure GivenBy (graph : IoTransactionGraph) (nodeId : U64) (file : FileIdentity)
    (confidence : EdgeConfidence) (node : IoNode) (path : List IoEdge) : Prop where
  member : node ∈ graph.nodes
  identity : node.file = some file
  leads : graph.IsPath node.nodeId path nodeId
  confidence : graph.capFor node.nodeId (weakestOn path) = confidence

theorem exists_visit_iff (wellFormed : graph.WellFormed) (file : FileIdentity)
    (confidence : EdgeConfidence) :
    (∃ visit view, graph.Visited nodeId visit ∧ graph.originAt visit = some view ∧
        view.file = file ∧ view.confidence = confidence) ↔
      ∃ node path, graph.GivenBy nodeId file confidence node path := by
  constructor
  · rintro ⟨⟨source, carried⟩, view, visited, at_, rfl, rfl⟩
    obtain ⟨node, found, identity, -, capped, -⟩ := originAt_eq_some at_
    obtain ⟨member, rfl⟩ := findNode_eq_some found
    obtain ⟨path, leads, rfl⟩ := visited_iff_isPath.mp visited
    exact ⟨node, path, member, identity, leads, capped.symm⟩
  · rintro ⟨node, path, member, identity, leads, rfl⟩
    have found := findNode_of_mem wellFormed.nodeIds member
    refine ⟨_, ⟨file, node.path, graph.capFor node.nodeId (weakestOn path), false⟩,
      visited_iff_isPath.mpr ⟨path, leads, rfl⟩, ?_, rfl, rfl⟩
    unfold originAt
    rw [found, Option.bind_eq_bind, Option.bind_some, identity, Option.bind_eq_bind,
      Option.bind_some]
    rfl

end Paths

/-- The origins of a node are the files of the nodes from which a path leads to it, each file
once, and each with the confidence of the widest of these paths. The search ends within four
turns for each edge and one more. -/
theorem fileOriginsFor_widest_path (transactionId : U64) (calls : List Call) (nodeId : U64) :
    let graph := build transactionId calls
    (∀ file, (∃ origin ∈ graph.fileOriginsFor nodeId, origin.file = file) ↔
      ∃ node ∈ graph.nodes, node.file = some file ∧ ∃ path, graph.IsPath node.nodeId path nodeId) ∧
      ((graph.fileOriginsFor nodeId).map (·.file)).Nodup ∧
      (∀ origin ∈ graph.fileOriginsFor nodeId,
        (∃ node path, graph.GivenBy nodeId origin.file origin.confidence node path) ∧
          ∀ confidence node path, graph.GivenBy nodeId origin.file confidence node path →
            confidence.rank ≤ origin.confidence.rank) ∧
      (turn graph.originVisit)^[4 * graph.edges.length + 1]
          (({} : OriginSearch), [(nodeId, EdgeConfidence.exact)]) =
        (graph.searchOrigins nodeId, []) := by
  intro graph
  have wellFormed := wellFormed_build transactionId calls
  obtain ⟨made, records⟩ := graph.searchOrigins_spec nodeId
  have filed := graph.filedByFile_searchOrigins nodeId
  -- what the search keeps for a file is given by a path, and no path gives more
  have kept : ∀ file confidence node path, graph.GivenBy nodeId file confidence node path →
      ∃ view, (graph.searchOrigins nodeId).origins.lookup file = some view ∧
        confidence.rank ≤ view.confidence.rank := by
    intro file confidence node path given
    obtain ⟨visit, view, visited, at_, rfl, rfl⟩ :=
      (exists_visit_iff wellFormed file confidence).mpr ⟨node, path, given⟩
    exact records.strongest visit ((made visit).mpr visited) view at_
  have found : ∀ origin ∈ graph.fileOriginsFor nodeId,
      ∃ node path, graph.GivenBy nodeId origin.file origin.confidence node path := by
    intro origin member
    obtain ⟨visit, visited, at_⟩ := visited_of_mem_fileOriginsFor member
    exact (exists_visit_iff wellFormed _ _).mp ⟨visit, _, visited, at_, rfl, rfl⟩
  refine ⟨fun file => ⟨?_, ?_⟩, ?_, fun origin member => ⟨found origin member, ?_⟩,
    searchOrigins_eq_iterate graph nodeId⟩
  · rintro ⟨origin, member, rfl⟩
    obtain ⟨node, path, given⟩ := found origin member
    exact ⟨node, given.member, given.identity, path, given.leads⟩
  · rintro ⟨node, member, identity, path, leads⟩
    obtain ⟨view, entry, -⟩ := kept file _ node path ⟨member, identity, leads, rfl⟩
    have own := filed file view entry
    exact ⟨_, mem_fileOriginsFor.mpr ⟨view, own.symm ▸ entry, rfl⟩, own⟩
  · rw [fileOriginsFor_eq, List.map_map]
    exact nodup_files_sortedViews filed
  · intro confidence node path given
    obtain ⟨view, entry, rfl⟩ := mem_fileOriginsFor.mp member
    obtain ⟨best, same, atMost⟩ := kept view.file confidence node path given
    rw [entry, Option.some.injEq] at same
    rw [same]
    exact atMost

end IoTransactionGraph

end EbpfStudio
