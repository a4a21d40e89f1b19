/-
This file proves that the search for the heaviest causal path finds one.

The search settles the nodes in an order in which causes come first. Since the graph has no cycle it
settles all of them, and then the score of a node is the largest weight of a path that ends there.
Following the recorded predecessors back from the best node gives a path of this weight.
-/

import EbpfStudio.Protocol.PathSearch

namespace EbpfStudio

open Worklist List Option Table

namespace IoTransactionGraph

theorem lookup_zeroDegrees (nodes : List IoNode) (degrees : Table U64 Nat) (nodeId : U64) :
    (nodes.foldl (fun degrees node => degrees.insert node.nodeId 0) degrees).lookup nodeId =
      if nodeId ∈ nodes.map (·.nodeId) then some 0 else degrees.lookup nodeId := by
  induction nodes generalizing degrees with
  | nil => rfl
  | cons node rest hypothesis =>
    rw [foldl_cons, hypothesis, lookup_insert_eq, map_cons]
    by_cases same : nodeId = node.nodeId
    · simp [same]
    · simp [same]

variable {nodeId : U64}

theorem lookup_countEdges (edges : List IoEdge) (degrees : Table U64 Nat) {degree : Nat}
    (start : degrees.lookup nodeId = some degree) :
    (edges.foldl (fun degrees edge => degrees.alter edge.toNodeId 0 (· + 1)) degrees).lookup
        nodeId =
      some (degree + entering edges nodeId) := by
  induction edges generalizing degrees degree with
  | nil => exact start
  | cons edge rest hypothesis =>
    rw [foldl_cons]
    by_cases same : edge.toNodeId = nodeId
    · have counted : (degrees.alter edge.toNodeId 0 (· + 1)).lookup nodeId = some (degree + 1) := by
        rw [lookup_alter_eq, if_pos same.symm, same, start]
        rfl
      rw [hypothesis _ counted]
      simp only [entering, countP_cons, same, decide_true, if_true, some.injEq]
      omega
    · have kept : (degrees.alter edge.toNodeId 0 (· + 1)).lookup nodeId = some degree := by
        rw [lookup_alter_eq, if_neg (Ne.symm same)]
        exact start
      rw [hypothesis _ kept]
      simp [entering, same]

theorem lookup_countEdges_of_not_entered (edges : List IoEdge) (degrees : Table U64 Nat)
    (unentered : ∀ edge ∈ edges, edge.toNodeId ≠ nodeId) :
    (edges.foldl (fun degrees edge => degrees.alter edge.toNodeId 0 (· + 1)) degrees).lookup
        nodeId =
      degrees.lookup nodeId := by
  induction edges generalizing degrees with
  | nil => rfl
  | cons edge rest hypothesis =>
    rw [foldl_cons, hypothesis _ fun other member =>
        unentered other (mem_cons_of_mem _ member), lookup_alter_eq,
      if_neg (unentered edge mem_cons_self).symm]

variable {graph : IoTransactionGraph}

theorem WellFormed.lookup_indegrees (wellFormed : graph.WellFormed) (nodeId : U64) :
    graph.indegrees.lookup nodeId =
      if nodeId ∈ graph.nodeIds then some (entering graph.causalEdges nodeId) else none := by
  have zero := lookup_zeroDegrees graph.nodes ∅ nodeId
  unfold indegrees
  by_cases member : nodeId ∈ graph.nodeIds
  · rw [if_pos member]
    rw [if_pos (show nodeId ∈ graph.nodes.map (·.nodeId) from member)] at zero
    rw [lookup_countEdges _ _ zero, zero_add]
  · rw [if_neg member]
    rw [if_neg (show nodeId ∉ graph.nodes.map (·.nodeId) from member)] at zero
    rw [lookup_countEdges_of_not_entered, zero]
    · rfl
    · rintro edge causal rfl
      exact member (wellFormed.causes_mem ⟨edge, causal, rfl, rfl⟩).2

theorem WellFormed.mem_readyNodes (wellFormed : graph.WellFormed) (order : IterationOrder)
    (nodeId : U64) :
    nodeId ∈ graph.readyNodes order ↔
      nodeId ∈ graph.nodeIds ∧ entering graph.causalEdges nodeId = 0 := by
  have listed : nodeId ∈ graph.readyNodes order ↔ graph.indegrees.lookup nodeId = some 0 := by
    rw [← mem_toPairs, ← (order.perm graph.indegrees.toPairs).mem_iff]
    simp [readyNodes]
  rw [listed, wellFormed.lookup_indegrees]
  split <;> simp_all

theorem readyNodes_nodup (graph : IoTransactionGraph) (order : IterationOrder) :
    (graph.readyNodes order).Nodup := by
  have keys : ((order.visit graph.indegrees.toPairs).map (·.1)).Nodup :=
    ((order.perm graph.indegrees.toPairs).map _).nodup_iff.mpr
      (keys_toPairs_nodup graph.indegrees)
  refine keys.sublist ?_
  unfold readyNodes
  induction order.visit graph.indegrees.toPairs with
  | nil => exact .slnil
  | cons entry rest hypothesis =>
    rw [filterMap_cons, map_cons]
    split
    · exact hypothesis.cons _
    · rename_i nodeId chosen
      split at chosen
      · cases chosen
        exact hypothesis.cons_cons _
      · cases chosen

theorem WellFormed.progress_start (wellFormed : graph.WellFormed) (order : IterationOrder)
    (weights : Table U64 U64) :
    Progress graph weights [] [] [] ⟨graph.indegrees, ∅, ∅⟩ (graph.readyNodes order) where
  account := by simp
  degrees nodeId member := by
    refine ⟨entering graph.causalEdges nodeId, ?_, rfl⟩
    rw [wellFormed.lookup_indegrees, if_pos member]
  distinct := graph.readyNodes_nodup order
  ready nodeId := by
    rw [nil_append, wellFormed.mem_readyNodes]
    exact and_congr_right fun _ => eq_comm
  settled nodeId member := by cases member
  known nodeId found := by cases found
  relaxed edge member := by cases member
  traced nodeId parent found := by cases found
  untraced nodeId found := by cases found
  ordered before nodeId after place := by simp at place

structure CausalPath (graph : IoTransactionGraph) (path : List U64) : Prop where
  nodes : ∀ nodeId ∈ path, nodeId ∈ graph.nodeIds
  chain : path.IsChain graph.Causes

variable {weights : Table U64 U64}

theorem Progress.complete {done : List U64} {used : List IoEdge} {search : PathSearch}
    (wellFormed : graph.WellFormed) (progress : Progress graph weights done used [] search []) :
    ∀ nodeId ∈ graph.nodeIds, nodeId ∈ done := by
  by_contra incomplete
  push Not at incomplete
  have acyclic : Arcs.Acyclic graph.Causes := fun nodeId cycle =>
    wellFormed.acyclic nodeId (Relation.TransGen.mono (fun _ _ => Causes.links) _ _ cycle)
  have finite : {nodeId | nodeId ∈ graph.nodeIds ∧ nodeId ∉ done}.Finite :=
    graph.nodeIds.finite_toSet.subset fun _ unsettled => unsettled.1
  obtain ⟨nodeId, ⟨member, unsettled⟩, source⟩ := Arcs.exists_source acyclic finite incomplete
  have account := progress.account
  rw [append_nil] at account
  have entered : entering used nodeId = entering graph.causalEdges nodeId := by
    unfold entering
    rw [account.countP_eq, countP_filter]
    refine countP_congr fun edge causal => ?_
    have settledSource : edge.toNodeId = nodeId → edge.fromNodeId ∈ done := by
      rintro rfl
      by_contra open_
      have causes : graph.Causes edge.fromNodeId edge.toNodeId := ⟨edge, causal, rfl, rfl⟩
      exact source _ ⟨(wellFormed.causes_mem causes).1, open_⟩ causes
    simpa using settledSource
  have ready := (progress.ready nodeId).mpr ⟨member, entered⟩
  rw [append_nil] at ready
  exact unsettled ready

theorem pathSearch_progress (wellFormed : graph.WellFormed) (light : graph.Light weights)
    (order : IterationOrder) :
    ∃ done used, Progress graph weights done used [] (graph.pathSearch order weights) [] := by
  let counted (turns : Nat) (search : PathSearch) (queue : List U64) : Prop :=
    ∃ done used, Progress graph weights done used [] search queue ∧
      graph.nodeIds.length ≤ turns + done.length
  have exhausted : ∀ search queue, counted 0 search queue → queue = [] := by
    rintro search queue ⟨done, used, progress, all⟩
    have inside : done ++ queue ⊆ graph.nodeIds := fun nodeId member =>
      ((progress.ready nodeId).mp member).1
    have fits := (progress.distinct.subperm inside).length_le
    rw [length_append] at fits
    exact eq_nil_of_length_eq_zero (by omega)
  have step : ∀ turns search nodeId queue, counted (turns + 1) search (nodeId :: queue) →
      counted turns (graph.pathVisit weights search nodeId).1
        (queue ++ (graph.pathVisit weights search nodeId).2) := by
    rintro turns search nodeId queue ⟨done, used, progress, all⟩
    refine ⟨_, _, progress.visit light wellFormed, ?_⟩
    rw [length_append, length_singleton]
    omega
  have enough : graph.nodeIds.length ≤ graph.pathTurns + ([] : List U64).length := by
    rw [nodeIds, length_map, pathTurns]
    exact Nat.le_add_right _ _
  obtain ⟨turns, done, used, progress, -⟩ := drainAll_spec_counted exhausted step
    graph.pathTurns _ _ ⟨[], [], wellFormed.progress_start order weights, enough⟩
  exact ⟨done, used, progress⟩

variable {graph : IoTransactionGraph} {weights : Table U64 U64} {search : PathSearch}

theorem Progress.pathWeight_le {done : List U64} {used : List IoEdge}
    (wellFormed : graph.WellFormed) (progress : Progress graph weights done used [] search [])
    (path : List U64) (last : U64) (causal : graph.CausalPath (path ++ [last])) :
    pathWeight weights (path ++ [last]) ≤ (search.scoreOf last).val := by
  have complete := progress.complete wellFormed
  induction path using reverseRecOn generalizing last with
  | nil =>
    have settled := complete last (causal.nodes last (by simp))
    simpa [pathWeight] using progress.weight_le (progress.settled last settled)
  | append_singleton path before hypothesis =>
    obtain ⟨chain, -, link⟩ := isChain_append.mp causal.chain
    obtain ⟨edge, member, rfl, rfl⟩ := link before (by simp) last (by simp)
    have shorter := hypothesis edge.fromNodeId
      ⟨fun nodeId listed => causal.nodes nodeId (mem_append_left _ listed), chain⟩
    have source := complete edge.fromNodeId (wellFormed.causes_mem ⟨edge, member, rfl, rfl⟩).1
    have account := progress.account
    rw [append_nil] at account
    have relaxed := progress.relaxed edge
      (account.mem_iff.mpr (mem_filter.mpr ⟨member, by simpa using source⟩))
    have weight : pathWeight weights ((path ++ [edge.fromNodeId]) ++ [edge.toNodeId]) =
        pathWeight weights (path ++ [edge.fromNodeId]) +
          (weightOf weights edge.toNodeId).val := by
      simp [pathWeight, add_assoc]
    rw [weight]
    omega

theorem inside_of_chain (wellFormed : graph.WellFormed) {path : List U64} {last : U64}
    (chain : path.IsChain graph.Causes) (ends : path.getLast? = some last)
    (member : last ∈ graph.nodeIds) : ∀ nodeId ∈ path, nodeId ∈ graph.nodeIds := by
  induction path with
  | nil => cases ends
  | cons first rest hypothesis =>
    cases rest with
    | nil =>
      intro nodeId listed
      cases ends
      rw [mem_singleton.mp listed]
      exact member
    | cons second rest =>
      obtain ⟨causes, chainRest⟩ := isChain_cons_cons.mp chain
      intro nodeId listed
      rcases mem_cons.mp listed with rfl | later
      · exact (wellFormed.causes_mem causes).1
      · exact hypothesis chainRest (by simpa using ends) nodeId later

theorem lastMaximum_spec (entries : List (U64 × U64)) :
    match lastMaximum entries with
    | none => entries = []
    | some best => best ∈ entries ∧ ∀ entry ∈ entries, entry.2 ≤ best.2 := by
  induction entries using reverseRecOn with
  | nil => rfl
  | append_singleton entries entry hypothesis =>
    have step : lastMaximum (entries ++ [entry]) =
        match lastMaximum entries with
        | none => some entry
        | some kept => if entry.2 < kept.2 then some kept else some entry := by
      unfold lastMaximum
      rw [foldl_append]
      rfl
    rw [step]
    cases found : lastMaximum entries with
    | none =>
      rw [found] at hypothesis
      simp [show entries = [] from hypothesis]
    | some kept =>
      rw [found] at hypothesis
      obtain ⟨member, largest⟩ := hypothesis
      dsimp only
      by_cases smaller : entry.2 < kept.2
      · rw [if_pos smaller]
        exact ⟨mem_append_left _ member, Run.forall_mem_snoc largest (le_of_lt smaller)⟩
      · rw [if_neg smaller]
        refine ⟨mem_concat_self, Run.forall_mem_snoc (fun other old => ?_) le_rfl⟩
        exact le_trans (largest other old) (not_lt.mp smaller)

variable {used pending : List IoEdge} {done queue : List U64}

section

variable (progress : Progress graph weights done used pending search queue)
include progress

theorem Progress.done_subset :
    done ⊆ graph.nodeIds := fun nodeId settled =>
  ((progress.ready nodeId).mp (mem_append_left _ settled)).1

theorem Progress.length_before_le {before after : List U64} {nodeId : U64}
    (place : done = before ++ nodeId :: after) :
    before.length ≤ graph.pathTurns := by
  have settled := (nodup_append.mp progress.distinct).1
  have fits := (settled.subperm progress.done_subset).length_le
  rw [place, length_append, nodeIds, length_map] at fits
  unfold pathTurns
  omega

end

theorem longestPath_spec (wellFormed : graph.WellFormed) (nonempty : graph.nodes ≠ [])
    (light : graph.Light weights) (order : IterationOrder) :
    (graph.longestPath order weights).1 ≠ [] ∧
      graph.CausalPath (graph.longestPath order weights).1 ∧
      pathWeight weights (graph.longestPath order weights).1 =
        (graph.longestPath order weights).2.val ∧
      ∀ path, graph.CausalPath path →
        pathWeight weights path ≤ (graph.longestPath order weights).2.val := by
  obtain ⟨done, used, progress⟩ := pathSearch_progress wellFormed light order
  let search := graph.pathSearch order weights
  have complete := progress.complete wellFormed
  have listed : ∀ {entry : U64 × U64}, entry ∈ order.visit search.score.toPairs ↔
      search.score.lookup entry.1 = some entry.2 := by
    intro entry
    rw [(order.perm _).mem_iff]
    exact mem_toPairs
  have largest := lastMaximum_spec (order.visit search.score.toPairs)
  cases found : lastMaximum (order.visit search.score.toPairs) with
  | none =>
    exfalso
    rw [found] at largest
    obtain ⟨node, rest, shape⟩ := exists_cons_of_ne_nil nonempty
    have member : node.nodeId ∈ graph.nodeIds := by
      rw [nodeIds, shape]
      exact mem_cons_self
    obtain ⟨score, scored⟩ := isSome_iff_exists.mp
      (progress.settled _ (complete _ member))
    have entry := listed.mpr (show search.score.lookup (node.nodeId, score).1 = _ from scored)
    rw [show order.visit search.score.toPairs = [] from largest] at entry
    cases entry
  | some best =>
    rw [found] at largest
    obtain ⟨member, largest⟩ := largest
    have scored := listed.mp member
    have value := PathSearch.scoreOf_of_lookup scored
    have settled := complete best.1 (progress.known best.1 (by rw [scored]; rfl))
    obtain ⟨before, after, place⟩ := append_of_mem settled
    obtain ⟨last, chain, weight⟩ := progress.traceBack_spec _ before best.1 after place
      (progress.length_before_le place)
    have shape : graph.longestPath order weights =
        (traceBack search.previous graph.pathTurns best.1, best.2) := by
      unfold longestPath
      dsimp only
      rw [found]
    rw [shape]
    refine ⟨?_, ⟨?_, chain⟩, ?_, ?_⟩
    · intro empty
      rw [show traceBack search.previous graph.pathTurns best.1 = [] from empty] at last
      cases last
    · exact inside_of_chain wellFormed chain last (progress.done_subset settled)
    · rw [← value]
      exact weight
    · intro path causal
      rcases eq_nil_or_concat path with rfl | ⟨front, finish, rfl⟩
      · exact Nat.zero_le _
      · rw [concat_eq_append] at causal ⊢
        have finishMember := causal.nodes finish (by simp)
        obtain ⟨score, finishScored⟩ := isSome_iff_exists.mp
          (progress.settled _ (complete _ finishMember))
        have below := largest (finish, score) (listed.mpr finishScored)
        have bound := progress.pathWeight_le wellFormed front finish causal
        exact le_trans bound (PathSearch.scoreOf_of_lookup finishScored ▸ Fin.le_def.mp below)

end IoTransactionGraph

end EbpfStudio
