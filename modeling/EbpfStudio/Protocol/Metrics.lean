/-
This file models the metrics of a transaction graph.

The exclusive time of a node is its interval without those of its additive descendants, which a work
list finds. Along a path the exclusive instants are disjoint, so no path weighs more than the length
of the graph, the sums fit in a word, and the heaviest path of `CriticalPath` is the critical one.
-/

import EbpfStudio.Protocol.CriticalPath
import EbpfStudio.Protocol.Intervals

namespace EbpfStudio

open Coverage Relation Worklist List Finset Fin

structure GraphMetrics where
  startTsNs : U64
  endTsNs : U64
  totalNs : U64
  accountedNs : U64
  unaccountedNs : U64
  exclusiveNs : Table U64 U64
  criticalPath : List U64
  criticalPathNs : U64
  unaccounted : List UnaccountedInterval

def GraphMetrics.default : GraphMetrics := ⟨0, 0, 0, 0, 0, ∅, [], 0, []⟩

namespace IoTransactionGraph

/-- One turn of the search for descendants: mark and queue the causal successors not found
before. -/
def descendantsVisit (graph : IoTransactionGraph) (found : List U64) (parent : U64) :
    List U64 × List U64 :=
  discover found ((graph.causalEdgesFrom parent).map (·.toNodeId))

/-- The nodes that a node leads to along causal edges. A node is queued when it is first found,
as the target of an edge. -/
def descendants (graph : IoTransactionGraph) (nodeId : U64) : List U64 :=
  drainAll graph.descendantsVisit (graph.edges.length + 1) [nodeId] []

/-- The intervals of the additive descendants of a node, cut to its own interval. -/
def childIntervals (graph : IoTransactionGraph) (node : IoNode) : List (U64 × U64) :=
  let descendants := graph.descendants node.nodeId
  (graph.nodes.filter fun child => child.nodeId ∈ descendants ∧ child.additive).filterMap
    fun child =>
      let start := max child.startTsNs node.startTsNs
      let childEnd := min child.endOrStart node.endOrStart
      if start ≤ childEnd then some (start, childEnd) else none

def exclusiveTime (graph : IoTransactionGraph) (node : IoNode) : U64 :=
  if node.additive then node.durationNs.saturatingSub (unionDuration (graph.childIntervals node))
  else 0

def exclusive (graph : IoTransactionGraph) : Table U64 U64 :=
  graph.nodes.foldl (fun table node => table.insert node.nodeId (graph.exclusiveTime node)) ∅

def additiveIntervals (graph : IoTransactionGraph) : List (U64 × U64) :=
  (graph.nodes.filter (·.additive)).map fun node => (node.startTsNs, node.endOrStart)

def metrics (graph : IoTransactionGraph) (order : IterationOrder) : GraphMetrics :=
  if graph.nodes.isEmpty then .default
  else
    let startTsNs := (graph.nodes.map (·.startTsNs)).min?.getD 0
    let endTsNs := (graph.nodes.map (·.endOrStart)).max?.getD startTsNs
    let accountedNs := unionDuration graph.additiveIntervals
    let path := graph.longestPath order graph.exclusive
    let totalNs := endTsNs.saturatingSub startTsNs
    { startTsNs := startTsNs
      endTsNs := endTsNs
      totalNs := totalNs
      accountedNs := min accountedNs totalNs
      unaccountedNs := totalNs.saturatingSub (min accountedNs totalNs)
      exclusiveNs := graph.exclusive
      criticalPath := path.1
      criticalPathNs := path.2
      unaccounted := uncoveredIntervals startTsNs endTsNs graph.additiveIntervals }

variable {graph : IoTransactionGraph}

theorem mem_causalSuccessors {first second : U64} :
    second ∈ (graph.causalEdgesFrom first).map (·.toNodeId) ↔ graph.Causes first second := by
  unfold causalEdgesFrom Causes causalEdges
  simp only [List.mem_map, List.mem_filter, decide_eq_true_eq]
  constructor
  · rintro ⟨edge, ⟨member, source, causal⟩, target⟩
    exact ⟨edge, ⟨member, causal⟩, source, target⟩
  · rintro ⟨edge, ⟨member, causal⟩, source, target⟩
    exact ⟨edge, ⟨member, source, causal⟩, target⟩

/-- Every found node is a descendant, and the successors of a found node are found or the node
is still queued. -/
structure DescendantSearch (graph : IoTransactionGraph) (start : U64) (found queue : List U64) :
    Prop where
  sound : ∀ nodeId ∈ found, TransGen graph.Causes start nodeId
  queued : ∀ nodeId ∈ queue, nodeId = start ∨ nodeId ∈ found
  closed : ∀ nodeId, nodeId = start ∨ nodeId ∈ found →
    nodeId ∈ queue ∨ ∀ other, graph.Causes nodeId other → other ∈ found

theorem DescendantSearch.visit {start parent : U64} {found queue : List U64}
    (search : DescendantSearch graph start found (parent :: queue)) :
    DescendantSearch graph start (graph.descendantsVisit found parent).1
      (queue ++ (graph.descendantsVisit found parent).2) := by
  have marked : ∀ nodeId, nodeId ∈ (graph.descendantsVisit found parent).1 ↔
      nodeId ∈ found ∨ graph.Causes parent nodeId := by
    intro nodeId
    rw [← mem_causalSuccessors]
    exact mem_discover_marked _ _ _
  have listed : ∀ nodeId, nodeId ∈ (graph.descendantsVisit found parent).2 ↔
      graph.Causes parent nodeId ∧ nodeId ∉ found := by
    intro nodeId
    rw [← mem_causalSuccessors]
    exact mem_discover_listed _ _ _
  refine ⟨fun nodeId member => ?_, fun nodeId member => ?_, fun nodeId origin => ?_⟩
  · rcases (marked nodeId).mp member with old | causes
    · exact search.sound nodeId old
    · rcases search.queued parent mem_cons_self with rfl | reached
      · exact .single causes
      · exact (search.sound parent reached).tail causes
  · rcases mem_append.mp member with old | new
    · refine (search.queued nodeId (mem_cons_of_mem _ old)).imp_right fun reached => ?_
      exact (marked nodeId).mpr (.inl reached)
    · exact .inr ((marked nodeId).mpr (.inr ((listed nodeId).mp new).1))
  · by_cases known : nodeId = start ∨ nodeId ∈ found
    · rcases search.closed nodeId known with waiting | covered
      · rcases mem_cons.mp waiting with rfl | later
        · exact .inr fun other causes => (marked other).mpr (.inr causes)
        · exact .inl (mem_append_left _ later)
      · exact .inr fun other causes => (marked other).mpr (.inl (covered other causes))
    · obtain ⟨different, fresh⟩ := not_or.mp known
      have reached := (marked nodeId).mp (origin.resolve_left different)
      exact .inl (mem_append_right _
        ((listed nodeId).mpr ⟨reached.resolve_left fresh, fresh⟩))

theorem mem_descendants {start nodeId : U64} :
    nodeId ∈ graph.descendants start ↔ TransGen graph.Causes start nodeId := by
  let targets := graph.edges.map (·.toNodeId)
  have among : ∀ parent, (graph.causalEdgesFrom parent).map (·.toNodeId) ⊆ targets := fun parent =>
    map_subset _ filter_sublist.subset
  have search : DescendantSearch graph start (graph.descendants start) [] := by
    refine drainAll_spec (fun found => (targets.filter fun nodeId => nodeId ∉ found).length)
      (fun found parent queue search => ⟨search.visit, ?_⟩) _ _ _ ?_ ⟨?_, ?_, ?_⟩
    · exact discover_paid targets found _ (among parent)
    · have bounded :=
        length_filter_le (fun nodeId => decide (nodeId ∉ ([] : List U64))) targets
      rw [length_map] at bounded
      rw [length_singleton]
      omega
    · intro other member
      cases member
    · intro other member
      exact .inl (List.mem_singleton.mp member)
    · rintro other (rfl | member)
      · exact .inl List.mem_cons_self
      · cases member
  have closed : ∀ other, other = start ∨ other ∈ graph.descendants start →
      ∀ next, graph.Causes other next → next ∈ graph.descendants start := fun other origin =>
    (search.closed other origin).resolve_left not_mem_nil
  constructor
  · exact search.sound nodeId
  · intro reached
    induction reached with
    | single causes => exact closed start (.inl rfl) _ causes
    | tail _ causes hypothesis => exact closed _ (.inr hypothesis) _ causes

def exclusiveInstants (graph : IoTransactionGraph) (node : IoNode) : Finset Nat :=
  if node.additive then
    Finset.Ico node.startTsNs.val node.endOrStart.val \
      covered (instants (graph.childIntervals node))
  else ∅

variable {instant : Nat}

theorem mem_covered_childIntervals {node : IoNode} :
    instant ∈ covered (instants (graph.childIntervals node)) ↔
      (node.startTsNs.val ≤ instant ∧ instant < node.endOrStart.val) ∧
        ∃ child ∈ graph.nodes, TransGen graph.Causes node.nodeId child.nodeId ∧ child.additive ∧
          child.startTsNs.val ≤ instant ∧ instant < child.endOrStart.val := by
  have inside : ∀ child : IoNode,
      ((max child.startTsNs node.startTsNs).val ≤ instant ∧
        instant < (min child.endOrStart node.endOrStart).val) ↔
      (node.startTsNs.val ≤ instant ∧ instant < node.endOrStart.val) ∧
        child.startTsNs.val ≤ instant ∧ instant < child.endOrStart.val := by
    intro child
    rw [Fin.coe_max, Fin.coe_min]
    omega
  rw [mem_covered_instants]
  unfold childIntervals
  simp only [List.mem_filterMap, List.mem_filter, decide_eq_true_eq, mem_descendants]
  constructor
  · rintro ⟨interval, ⟨child, ⟨member, descends, additive⟩, cut⟩, holds⟩
    split at cut
    · cases cut
      obtain ⟨own, shared⟩ := (inside child).mp holds
      exact ⟨own, child, member, descends, additive, shared⟩
    · cases cut
  · rintro ⟨own, child, member, descends, additive, shared⟩
    have holds := (inside child).mpr ⟨own, shared⟩
    refine ⟨_, ⟨child, ⟨member, descends, additive⟩, if_pos ?_⟩, holds⟩
    exact Fin.le_def.mpr (le_of_lt (lt_of_le_of_lt holds.1 holds.2))

theorem exclusiveTime_val (graph : IoTransactionGraph) (node : IoNode) :
    (graph.exclusiveTime node).val = (graph.exclusiveInstants node).card := by
  unfold exclusiveTime exclusiveInstants
  split
  · have subset : covered (instants (graph.childIntervals node)) ⊆
        Ico node.startTsNs.val node.endOrStart.val := by
      intro instant member
      exact mem_Ico.mpr (mem_covered_childIntervals.mp member).1
    rw [Word.saturatingSub_val, unionDuration_val, card_sdiff_of_subset subset,
      Nat.card_Ico]
    rfl
  · rfl

/-- The exclusive instants of the node with an id; there are none without such a node. -/
def exclusiveInstantsOf (graph : IoTransactionGraph) (nodeId : U64) : Finset Nat :=
  match graph.findNode nodeId with
  | none => ∅
  | some node => graph.exclusiveInstants node

theorem lookup_insertEach {Value : Type} (value : IoNode → Value) (nodes : List IoNode)
    (distinct : (nodes.map (·.nodeId)).Nodup) (table : Table U64 Value) (nodeId : U64) :
    (nodes.foldl (fun table node => table.insert node.nodeId (value node)) table).lookup nodeId =
      match nodes.find? fun node => node.nodeId = nodeId with
      | none => table.lookup nodeId
      | some node => some (value node) := by
  induction nodes generalizing table with
  | nil => rfl
  | cons node rest hypothesis =>
    rw [List.map_cons, List.nodup_cons] at distinct
    rw [List.foldl_cons, hypothesis distinct.2]
    by_cases same : node.nodeId = nodeId
    · have absent : rest.find? (fun node => node.nodeId = nodeId) = none := by
        rw [find?_eq_none]
        intro other member equal
        refine distinct.1 (mem_map.mpr ⟨other, member, ?_⟩)
        rw [same]
        simpa using equal
      rw [absent, find?_cons_of_pos (by simpa using same)]
      rw [Table.lookup_insert_eq, if_pos same.symm]
    · rw [find?_cons_of_neg (by simpa using same)]
      cases rest.find? fun node => node.nodeId = nodeId with
      | none =>
        rw [Table.lookup_insert_eq, if_neg (Ne.symm same)]
      | some other => rfl

theorem WellFormed.weightOf_exclusive (wellFormed : graph.WellFormed) (nodeId : U64) :
    (weightOf graph.exclusive nodeId).val = (graph.exclusiveInstantsOf nodeId).card := by
  unfold weightOf exclusive
  rw [lookup_insertEach graph.exclusiveTime graph.nodes wellFormed.nodeIds]
  unfold exclusiveInstantsOf findNode
  cases graph.nodes.find? fun node => node.nodeId = nodeId with
  | none => rfl
  | some node => exact graph.exclusiveTime_val node

theorem mem_exclusiveInstantsOf {nodeId : U64}
    (member : instant ∈ graph.exclusiveInstantsOf nodeId) :
    ∃ node ∈ graph.nodes, node.nodeId = nodeId ∧ node.additive ∧
      (node.startTsNs.val ≤ instant ∧ instant < node.endOrStart.val) ∧
      instant ∉ covered (instants (graph.childIntervals node)) := by
  unfold exclusiveInstantsOf at member
  cases found : graph.findNode nodeId with
  | none =>
    rw [found] at member
    cases member
  | some node =>
    rw [found] at member
    obtain ⟨listed, same⟩ := findNode_eq_some found
    dsimp only at member
    unfold exclusiveInstants at member
    split at member
    · rename_i additive
      obtain ⟨own, unshared⟩ := mem_sdiff.mp member
      exact ⟨node, listed, same, additive, mem_Ico.mp own, unshared⟩
    · cases member

theorem disjoint_exclusiveInstantsOf {first second : U64}
    (descends : TransGen graph.Causes first second) :
    Disjoint (graph.exclusiveInstantsOf first) (graph.exclusiveInstantsOf second) := by
  rw [Finset.disjoint_left]
  intro instant early late
  obtain ⟨node, -, rfl, -, own, unshared⟩ := mem_exclusiveInstantsOf early
  obtain ⟨child, member, rfl, additive, shared, -⟩ := mem_exclusiveInstantsOf late
  exact unshared (mem_covered_childIntervals.mpr
    ⟨own, child, member, descends, additive, shared⟩)

variable {path : List U64}

theorem pairwise_disjoint_exclusive (chain : path.IsChain graph.Causes) :
    path.Pairwise fun first second =>
      Disjoint (graph.exclusiveInstantsOf first) (graph.exclusiveInstantsOf second) :=
  (Arcs.pairwise_of_isChain chain).imp disjoint_exclusiveInstantsOf

theorem exclusiveInstantsOf_subset (graph : IoTransactionGraph) (nodeId : U64) :
    graph.exclusiveInstantsOf nodeId ⊆ covered (instants graph.additiveIntervals) := by
  intro instant member
  obtain ⟨node, listed, -, additive, own, -⟩ := mem_exclusiveInstantsOf member
  refine mem_covered_instants.mpr ⟨(node.startTsNs, node.endOrStart), ?_, own⟩
  exact mem_map.mpr ⟨node, mem_filter.mpr ⟨listed, additive⟩, rfl⟩

theorem WellFormed.pathWeight_exclusive_le (wellFormed : graph.WellFormed)
    (chain : path.IsChain graph.Causes) :
    pathWeight graph.exclusive path ≤ (unionDuration graph.additiveIntervals).val := by
  unfold pathWeight
  simp only [wellFormed.weightOf_exclusive, unionDuration_val]
  exact sum_card_le_card graph.exclusiveInstantsOf _ path (pairwise_disjoint_exclusive chain)
    fun nodeId _ => graph.exclusiveInstantsOf_subset nodeId

theorem WellFormed.light_exclusive (wellFormed : graph.WellFormed) :
    graph.Light graph.exclusive := fun _ chain =>
  lt_of_le_of_lt (wellFormed.pathWeight_exclusive_le chain) (isLt _)

theorem metrics_encloses {node : IoNode} (member : node ∈ graph.nodes) (order : IterationOrder) :
    (graph.metrics order).startTsNs ≤ node.startTsNs ∧
      node.endOrStart ≤ (graph.metrics order).endTsNs := by
  have nonempty : graph.nodes.isEmpty = false := by
    rw [isEmpty_eq_false_iff]
    exact ne_nil_of_mem member
  unfold metrics
  rw [nonempty]
  constructor
  · show (graph.nodes.map (·.startTsNs)).min?.getD 0 ≤ _
    cases least : (graph.nodes.map (·.startTsNs)).min? with
    | none =>
      rw [min?_eq_none_iff, map_eq_nil_iff] at least
      exact absurd least (ne_nil_of_mem member)
    | some start => exact (min?_eq_some_iff.mp least).2 _ (mem_map_of_mem member)
  · show _ ≤ (graph.nodes.map (·.endOrStart)).max?.getD _
    cases greatest : (graph.nodes.map (·.endOrStart)).max? with
    | none =>
      rw [max?_eq_none_iff, map_eq_nil_iff] at greatest
      exact absurd greatest (ne_nil_of_mem member)
    | some finish => exact (max?_eq_some_iff.mp greatest).2 _ (mem_map_of_mem member)

theorem covered_additive_subset (graph : IoTransactionGraph) (order : IterationOrder) :
    covered (instants graph.additiveIntervals) ⊆
      Ico (graph.metrics order).startTsNs.val (graph.metrics order).endTsNs.val := by
  intro instant member
  obtain ⟨interval, listed, after, before⟩ := mem_covered_instants.mp member
  obtain ⟨node, additive, rfl⟩ := mem_map.mp listed
  obtain ⟨first, last⟩ := metrics_encloses (mem_of_mem_filter additive) order
  exact mem_Ico.mpr ⟨le_trans (le_def.mp first) after,
    lt_of_lt_of_le before (le_def.mp last)⟩

theorem unionDuration_le_total (order : IterationOrder) (nonempty : graph.nodes ≠ []) :
    unionDuration graph.additiveIntervals ≤ (graph.metrics order).totalNs := by
  have total : (graph.metrics order).totalNs =
      (graph.metrics order).endTsNs.saturatingSub (graph.metrics order).startTsNs := by
    unfold metrics
    rw [if_neg (by simpa using nonempty)]
  rw [total, le_def, unionDuration_val, Word.saturatingSub_val]
  exact le_trans (card_le_card (graph.covered_additive_subset order))
    (le_of_eq (Nat.card_Ico _ _))

/-- For every graph built by the two calls and every iteration order, the critical path is a
causal path whose exclusive times add up to its length, no causal path is longer, and no
instant is counted twice on the way: exclusive times measure disjoint sets along every causal
path, so the critical path fits in the accounted time and that in the total time. -/
theorem metrics_criticalPath_heaviest (transactionId : U64) (calls : List Call)
    (order : IterationOrder) :
    let graph := build transactionId calls
    let metrics := graph.metrics order
    (graph.nodes ≠ [] → metrics.criticalPath ≠ []) ∧
      graph.CausalPath metrics.criticalPath ∧
      pathWeight metrics.exclusiveNs metrics.criticalPath = metrics.criticalPathNs.val ∧
      (∀ path, graph.CausalPath path →
        pathWeight metrics.exclusiveNs path ≤ metrics.criticalPathNs.val) ∧
      (∀ path, graph.CausalPath path → path.Pairwise fun first second =>
        Disjoint (graph.exclusiveInstantsOf first) (graph.exclusiveInstantsOf second)) ∧
      (∀ nodeId, (weightOf metrics.exclusiveNs nodeId).val =
        (graph.exclusiveInstantsOf nodeId).card) ∧
      metrics.criticalPathNs ≤ metrics.accountedNs ∧ metrics.accountedNs ≤ metrics.totalNs := by
  intro graph metrics
  have wellFormed : graph.WellFormed := wellFormed_build transactionId calls
  have apart : ∀ path, graph.CausalPath path → path.Pairwise fun first second =>
      Disjoint (graph.exclusiveInstantsOf first) (graph.exclusiveInstantsOf second) :=
    fun path causal => pairwise_disjoint_exclusive causal.chain
  by_cases nonempty : graph.nodes = []
  · have empty : metrics = .default := if_pos (by rw [nonempty]; rfl)
    have none : ∀ path, graph.CausalPath path → path = [] := by
      intro path causal
      refine eq_nil_iff_forall_not_mem.mpr fun nodeId member => ?_
      have listed := causal.nodes nodeId member
      rw [nodeIds, nonempty] at listed
      cases listed
    rw [empty]
    refine ⟨fun some => absurd nonempty some, ⟨fun nodeId member => ?_, isChain_nil⟩, rfl,
      fun path causal => ?_, apart, fun nodeId => ?_, le_rfl, le_rfl⟩
    · cases member
    · rw [none path causal]
      exact le_rfl
    · have absent : graph.findNode nodeId = Option.none := by
        unfold findNode
        rw [nonempty]
        rfl
      unfold exclusiveInstantsOf
      rw [absent]
      rfl
  · have shape : metrics.exclusiveNs = graph.exclusive ∧
        metrics.criticalPath = (graph.longestPath order graph.exclusive).1 ∧
        metrics.criticalPathNs = (graph.longestPath order graph.exclusive).2 ∧
        metrics.accountedNs =
          min (unionDuration graph.additiveIntervals) metrics.totalNs := by
      simp only [metrics, IoTransactionGraph.metrics]
      rw [if_neg (by simpa using nonempty)]
      exact ⟨rfl, rfl, rfl, rfl⟩
    obtain ⟨exclusiveNs, criticalPath, criticalPathNs, accountedNs⟩ := shape
    have within := unionDuration_le_total order nonempty
    rw [min_eq_left within] at accountedNs
    obtain ⟨some, causal, weight, heaviest⟩ :=
      longestPath_spec wellFormed nonempty wellFormed.light_exclusive order
    rw [exclusiveNs, criticalPath, criticalPathNs, accountedNs]
    refine ⟨fun _ => some, causal, weight, heaviest, apart, wellFormed.weightOf_exclusive, ?_,
      within⟩
    rw [le_def, ← weight]
    exact wellFormed.pathWeight_exclusive_le causal.chain

end IoTransactionGraph

end EbpfStudio
