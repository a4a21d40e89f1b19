/-
This file models the transaction graph and the two calls that build it.

An id is used once, and an edge is refused if it runs backward in time or if its target leads back
to its source, which a work list searches for (`SearchInvariant`). So the graphs that calls build
are well formed: ids are unique, edges join nodes, and there is no cycle.
-/

import EbpfStudio.Library.Arcs
import EbpfStudio.Library.Run
import EbpfStudio.Library.Worklist
import EbpfStudio.Protocol.Event

namespace EbpfStudio

open Relation Run Worklist List

inductive GraphError where
  | duplicateNode (nodeId : U64)
  | duplicateEdge (edgeId : U64)
  | missingNode (nodeId : U64)
  | invalidTime (nodeId : U64)
  | cycle
  | reverseTime (edgeId : U64)
  deriving DecidableEq

/-- The graph of one transaction. -/
structure IoTransactionGraph where
  transactionId : U64
  nodes : List IoNode
  edges : List IoEdge
  deriving DecidableEq

namespace IoTransactionGraph

def new (transactionId : U64) : IoTransactionGraph := ⟨transactionId, [], []⟩

def findNode (graph : IoTransactionGraph) (nodeId : U64) : Option IoNode :=
  graph.nodes.find? fun node => node.nodeId = nodeId

def successors (graph : IoTransactionGraph) (nodeId : U64) : List U64 :=
  (graph.edges.filter fun edge => edge.fromNodeId = nodeId).map (·.toNodeId)

/-- Add a node with a new id. -/
def addNode (graph : IoTransactionGraph) (node : IoNode) :
    IoTransactionGraph × Except GraphError Unit :=
  if node.endOrStart < node.startTsNs then (graph, .error (.invalidTime node.nodeId))
  else if graph.nodes.any fun value => value.nodeId = node.nodeId then
    (graph, .error (.duplicateNode node.nodeId))
  else ({ graph with nodes := graph.nodes ++ [node] }, .ok ())

/-- One turn of the search: stop at the target, skip a node seen before, else mark it and
queue its successors. -/
def reachableVisit (graph : IoTransactionGraph) (target : U64) (seen : List U64) (node : U64) :
    Except Unit (List U64 × List U64) :=
  if node = target then .error ()
  else if node ∈ seen then .ok (seen, [])
  else .ok (node :: seen, graph.successors node)

/-- Every edge is queued at most once, when its source is first marked, so one turn for each
edge and one for the start suffice. -/
def reachable (graph : IoTransactionGraph) (start target : U64) : Bool :=
  match drain (graph.reachableVisit target) (graph.edges.length + 1) [start] [] with
  | .error _ => true
  | .ok _ => false

/-- Add an edge that runs forward and closes no cycle. -/
def addEdge (graph : IoTransactionGraph) (edge : IoEdge) :
    IoTransactionGraph × Except GraphError Unit :=
  if graph.edges.any fun value => value.edgeId = edge.edgeId then
    (graph, .error (.duplicateEdge edge.edgeId))
  else
    match graph.findNode edge.fromNodeId with
    | none => (graph, .error (.missingNode edge.fromNodeId))
    | some source =>
      match graph.findNode edge.toNodeId with
      | none => (graph, .error (.missingNode edge.toNodeId))
      | some target =>
        if target.endOrStart < source.startTsNs then (graph, .error (.reverseTime edge.edgeId))
        else if edge.fromNodeId = edge.toNodeId ∨
            graph.reachable edge.toNodeId edge.fromNodeId then (graph, .error .cycle)
        else ({ graph with edges := graph.edges ++ [edge] }, .ok ())

/-- An edge leads from one node to another. -/
def Links (graph : IoTransactionGraph) (first second : U64) : Prop :=
  ∃ edge ∈ graph.edges, edge.fromNodeId = first ∧ edge.toNodeId = second

variable {graph : IoTransactionGraph}

theorem mem_successors {first second : U64} :
    second ∈ graph.successors first ↔ graph.Links first second := by
  unfold successors Links
  simp only [mem_map, mem_filter, decide_eq_true_eq]
  constructor
  · rintro ⟨edge, ⟨member, source⟩, target⟩
    exact ⟨edge, member, source, target⟩
  · rintro ⟨edge, member, source, target⟩
    exact ⟨edge, ⟨member, source⟩, target⟩

/-- The edges whose source is not marked yet pay for the items still to be queued. -/
def unmarkedEdges (graph : IoTransactionGraph) (seen : List U64) : Nat :=
  (graph.edges.filter fun edge => edge.fromNodeId ∉ seen).length

theorem unmarkedEdges_mark (graph : IoTransactionGraph) {seen : List U64} {node : U64}
    (unmarked : node ∉ seen) :
    graph.unmarkedEdges (node :: seen) + (graph.successors node).length =
      graph.unmarkedEdges seen := by
  have sources := countP_unmarked_mark (graph.edges.map (·.fromNodeId)) unmarked
  rw [count, countP_map, countP_map, countP_map] at sources
  unfold unmarkedEdges successors
  rw [length_map, ← countP_eq_length_filter, ← countP_eq_length_filter,
    ← countP_eq_length_filter]
  exact sources

/-- The search has marked or queued everything linked from a marked node, and only nodes the
start reaches. -/
structure SearchInvariant (graph : IoTransactionGraph) (start target : U64)
    (seen queue : List U64) : Prop where
  reached : ∀ node, node ∈ seen ∨ node ∈ queue → ReflTransGen graph.Links start node
  started : start ∈ seen ∨ start ∈ queue
  closed : ∀ first ∈ seen, ∀ second, graph.Links first second → second ∈ seen ∨ second ∈ queue
  missed : target ∉ seen

section

variable (graph : IoTransactionGraph) (start target : U64)

theorem searchInvariant_visit (seen : List U64) (node : U64) (queue : List U64)
    (holds : SearchInvariant graph start target seen (node :: queue)) :
    Outcome (fun _ => ReflTransGen graph.Links start target)
      (fun next => SearchInvariant graph start target next.1 (queue ++ next.2) ∧
        graph.unmarkedEdges next.1 + next.2.length ≤ graph.unmarkedEdges seen)
      (graph.reachableVisit target seen node) := by
  have explores : Explores graph.Links start seen (node :: queue) :=
    ⟨holds.reached, holds.started, holds.closed⟩
  unfold reachableVisit
  by_cases found : node = target
  · rw [if_pos found]
    exact found ▸ holds.reached node (.inr mem_cons_self)
  rw [if_neg found]
  by_cases marked : node ∈ seen
  · rw [if_pos marked]
    have rest := explores.skip marked
    rw [outcome_ok, append_nil]
    exact ⟨⟨rest.reached, rest.started, rest.closed, holds.missed⟩, le_rfl⟩
  · rw [if_neg marked]
    have listed : ∀ other, other ∈ graph.successors node ↔ graph.Links node other :=
      fun _ => mem_successors
    have next := explores.mark listed
    refine ⟨⟨next.reached, next.started, next.closed, fun known => ?_⟩,
      (graph.unmarkedEdges_mark marked).le⟩
    rcases mem_cons.mp known with equal | older
    · exact found equal.symm
    · exact holds.missed older

theorem searchInvariant_start : SearchInvariant graph start target [] [start] :=
  have initial : Explores graph.Links start [] [start] := explores_start
  ⟨initial.reached, initial.started, initial.closed, not_mem_nil⟩

theorem reachable_iff :
    graph.reachable start target = true ↔ ReflTransGen graph.Links start target := by
  have spec := drain_spec graph.unmarkedEdges
    (searchInvariant_visit graph start target)
    (graph.edges.length + 1) [start] []
    (by
      have bound : graph.unmarkedEdges [] ≤ graph.edges.length := length_filter_le _ _
      rw [length_singleton]
      omega)
    (searchInvariant_start graph start target)
  unfold reachable
  cases outcome : drain (graph.reachableVisit target) (graph.edges.length + 1) [start] [] with
  | error early =>
    rw [outcome] at spec
    exact ⟨fun _ => spec, fun _ => rfl⟩
  | ok seen =>
    rw [outcome] at spec
    have explored : Explores graph.Links start seen [] :=
      ⟨spec.reached, spec.started, spec.closed⟩
    exact ⟨fun impossible => (Bool.false_ne_true impossible).elim,
      fun walk => absurd (explored.mem_iff.mpr walk) spec.missed⟩

end

/-- What every graph that was built satisfies. -/
structure WellFormed (graph : IoTransactionGraph) : Prop where
  nodeIds : (graph.nodes.map (·.nodeId)).Nodup
  edgeIds : (graph.edges.map (·.edgeId)).Nodup
  times : ∀ node ∈ graph.nodes, node.startTsNs ≤ node.endOrStart
  endpoints : ∀ edge ∈ graph.edges, ∃ source ∈ graph.nodes, ∃ target ∈ graph.nodes,
    source.nodeId = edge.fromNodeId ∧ target.nodeId = edge.toNodeId ∧
      source.startTsNs ≤ target.endOrStart
  acyclic : Arcs.Acyclic graph.Links

theorem wellFormed_new (transactionId : U64) : (new transactionId).WellFormed where
  nodeIds := List.nodup_nil
  edgeIds := nodup_nil
  times node member := by cases member
  endpoints edge member := by cases member
  acyclic node cycle := by
    obtain ⟨other, ⟨edge, member, _⟩, _⟩ := TransGen.head'_iff.mp cycle
    cases member

theorem findNode_eq_some {nodeId : U64} {node : IoNode}
    (found : graph.findNode nodeId = some node) : node ∈ graph.nodes ∧ node.nodeId = nodeId :=
  ⟨mem_of_find?_eq_some found, by simpa using find?_some found⟩

theorem addNode_cases (graph : IoTransactionGraph) (node : IoNode) :
    ((graph.addNode node).1 = graph ∧ (graph.addNode node).2 ≠ .ok ()) ∨
      ((graph.addNode node).1 = { graph with nodes := graph.nodes ++ [node] } ∧
        (graph.addNode node).2 = .ok () ∧ node.startTsNs ≤ node.endOrStart ∧
        ∀ other ∈ graph.nodes, other.nodeId ≠ node.nodeId) := by
  unfold addNode
  split
  · exact .inl ⟨rfl, by simp⟩
  · rename_i ordered
    split
    · exact .inl ⟨rfl, by simp⟩
    · rename_i fresh
      exact .inr ⟨rfl, rfl, not_lt.mp ordered, by simpa using fresh⟩

/-- An edge call either rejects the edge and keeps the graph, or appends an edge with a fresh
id that runs forward in time between two nodes and closes no cycle. -/
theorem addEdge_cases (graph : IoTransactionGraph) (edge : IoEdge) :
    ((graph.addEdge edge).1 = graph ∧ (graph.addEdge edge).2 ≠ .ok ()) ∨
      ((graph.addEdge edge).1 = { graph with edges := graph.edges ++ [edge] } ∧
        (graph.addEdge edge).2 = .ok () ∧
        (∀ other ∈ graph.edges, other.edgeId ≠ edge.edgeId) ∧
        (∃ source ∈ graph.nodes, ∃ target ∈ graph.nodes,
          source.nodeId = edge.fromNodeId ∧ target.nodeId = edge.toNodeId ∧
            source.startTsNs ≤ target.endOrStart) ∧
        ¬ ReflTransGen graph.Links edge.toNodeId edge.fromNodeId) := by
  unfold addEdge
  split
  · exact .inl ⟨rfl, by simp⟩
  rename_i fresh
  split
  · exact .inl ⟨rfl, by simp⟩
  rename_i source foundSource
  split
  · exact .inl ⟨rfl, by simp⟩
  rename_i target foundTarget
  split
  · exact .inl ⟨rfl, by simp⟩
  rename_i ordered
  split
  · exact .inl ⟨rfl, by simp⟩
  rename_i open_
  obtain ⟨sourceMember, sourceId⟩ := findNode_eq_some foundSource
  obtain ⟨targetMember, targetId⟩ := findNode_eq_some foundTarget
  refine .inr ⟨rfl, rfl, by simpa using fresh,
    ⟨source, sourceMember, target, targetMember, sourceId, targetId, not_lt.mp ordered⟩, ?_⟩
  intro walk
  exact open_ (.inr ((graph.reachable_iff _ _).mpr walk))

theorem links_append (graph : IoTransactionGraph) (edge : IoEdge) :
    ({ graph with edges := graph.edges ++ [edge] } : IoTransactionGraph).Links =
      Arcs.withArc graph.Links edge.fromNodeId edge.toNodeId := by
  funext first second
  simp only [Links, Arcs.withArc, mem_append, mem_singleton, eq_iff_iff]
  constructor
  · rintro ⟨other, old | rfl, source, target⟩
    · exact .inl ⟨other, old, source, target⟩
    · exact .inr ⟨source.symm, target.symm⟩
  · rintro (⟨other, old, source, target⟩ | ⟨rfl, rfl⟩)
    · exact ⟨other, .inl old, source, target⟩
    · exact ⟨edge, .inr rfl, rfl, rfl⟩

theorem nodup_map_concat {Item Key : Type} {key : Item → Key} {items : List Item} {item : Item}
    (nodup : (items.map key).Nodup) (fresh : ∀ other ∈ items, key other ≠ key item) :
    ((items ++ [item]).map key).Nodup := by
  rw [map_append, map_singleton, ← concat_eq_append]
  refine Nodup.concat (fun listed => ?_) nodup
  obtain ⟨other, member, same⟩ := mem_map.mp listed
  exact fresh other member same

theorem wellFormed_addNode (wellFormed : graph.WellFormed) (node : IoNode) :
    (graph.addNode node).1.WellFormed := by
  rcases graph.addNode_cases node with ⟨same, _⟩ | ⟨added, _, ordered, fresh⟩
  · rw [same]
    exact wellFormed
  · rw [added]
    refine ⟨nodup_map_concat wellFormed.nodeIds fresh, wellFormed.edgeIds,
      forall_mem_append.mpr ⟨wellFormed.times, forall_mem_singleton.mpr ordered⟩,
      fun edge member => ?_, wellFormed.acyclic⟩
    · obtain ⟨source, sourceMember, target, targetMember, facts⟩ :=
        wellFormed.endpoints edge member
      exact ⟨source, mem_append_left _ sourceMember, target,
        mem_append_left _ targetMember, facts⟩

theorem wellFormed_addEdge (wellFormed : graph.WellFormed) (edge : IoEdge) :
    (graph.addEdge edge).1.WellFormed := by
  rcases graph.addEdge_cases edge with ⟨same, _⟩ | ⟨added, _, fresh, ends, unreached⟩
  · rw [same]
    exact wellFormed
  · rw [added]
    refine ⟨wellFormed.nodeIds, nodup_map_concat wellFormed.edgeIds fresh, wellFormed.times,
      forall_mem_append.mpr ⟨wellFormed.endpoints, forall_mem_singleton.mpr ends⟩, ?_⟩
    rw [links_append]
    exact Arcs.acyclic_withArc wellFormed.acyclic unreached

/-- A call that builds a graph. -/
inductive Call where
  | addNode (node : IoNode)
  | addEdge (edge : IoEdge)

def apply (graph : IoTransactionGraph) : Call → IoTransactionGraph × Except GraphError Unit
  | .addNode node => graph.addNode node
  | .addEdge edge => graph.addEdge edge

/-- The graph after some calls. -/
def build (transactionId : U64) (calls : List Call) : IoTransactionGraph :=
  run (fun graph call => (graph.apply call).1) (new transactionId) calls

theorem wellFormed_build (transactionId : U64) (calls : List Call) :
    (build transactionId calls).WellFormed := by
  refine run_induction (fun _ graph => WellFormed graph)
    (wellFormed_new transactionId) (fun history call wellFormed => ?_) calls
  cases call with
  | addNode node => exact wellFormed_addNode wellFormed node
  | addEdge edge => exact wellFormed_addEdge wellFormed edge

theorem apply_of_error (graph : IoTransactionGraph) (call : Call)
    (failed : (graph.apply call).2 ≠ .ok ()) : (graph.apply call).1 = graph := by
  cases call with
  | addNode node =>
    rcases graph.addNode_cases node with ⟨same, _⟩ | ⟨_, accepted, _⟩
    · exact same
    · exact absurd accepted failed
  | addEdge edge =>
    rcases graph.addEdge_cases edge with ⟨same, _⟩ | ⟨_, accepted, _⟩
    · exact same
    · exact absurd accepted failed

theorem addEdge_cycle {edge : IoEdge} (refused : (graph.addEdge edge).2 = .error .cycle) :
    ReflTransGen graph.Links edge.toNodeId edge.fromNodeId := by
  unfold addEdge at refused
  split at refused
  · cases refused
  split at refused
  · cases refused
  split at refused
  · cases refused
  split at refused
  · cases refused
  split at refused
  · rename_i closes
    rcases closes with same | reached
    · rw [same]
    · exact (graph.reachable_iff _ _).mp reached
  · cases refused

/-- Every sequence of node and edge calls on a new graph leaves it well formed; a call that
fails changes nothing; and an edge is refused as a cycle only if adding it would make one. -/
theorem build_wellFormed_and_errors_exact (transactionId : U64) (calls : List Call) :
    (build transactionId calls).WellFormed ∧
      (∀ call, ((build transactionId calls).apply call).2 ≠ .ok () →
        ((build transactionId calls).apply call).1 = build transactionId calls) ∧
      ∀ edge, ((build transactionId calls).addEdge edge).2 = .error .cycle →
        ∃ node, TransGen ({ build transactionId calls with
          edges := (build transactionId calls).edges ++ [edge] } : IoTransactionGraph).Links
            node node := by
  refine ⟨wellFormed_build transactionId calls, fun call failed => apply_of_error _ call failed,
    fun edge refused => ⟨edge.fromNodeId, ?_⟩⟩
  rw [links_append]
  exact Arcs.cycle_withArc (addEdge_cycle refused)

end IoTransactionGraph

end EbpfStudio
