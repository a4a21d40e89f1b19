/-
This file models the search for the heaviest causal path of a transaction graph.

The nodes are settled in topological order. When a node is settled its edges are relaxed, which
raises the scores of their targets and counts down what these wait for. `Progress` is the invariant,
of settled nodes and edges still to be relaxed, and each step of the source is a lemma about it.
-/

import EbpfStudio.Library.Table
import EbpfStudio.Protocol.Graph

namespace EbpfStudio

open List Worklist Option Table

namespace IoTransactionGraph

def causalEdges (graph : IoTransactionGraph) : List IoEdge :=
  graph.edges.filter fun edge => edge.confidence ≠ .contextOnly

def causalEdgesFrom (graph : IoTransactionGraph) (nodeId : U64) : List IoEdge :=
  graph.edges.filter fun edge => edge.fromNodeId = nodeId ∧ edge.confidence ≠ .contextOnly

structure PathSearch where
  indegree : Table U64 Nat
  score : Table U64 U64
  previous : Table U64 U64

def weightOf (weights : Table U64 U64) (nodeId : U64) : U64 := (weights.lookup nodeId).getD 0

namespace PathSearch

def scoreOf (search : PathSearch) (nodeId : U64) : U64 := (search.score.lookup nodeId).getD 0

def settle (weights : Table U64 U64) (search : PathSearch) (nodeId : U64) : PathSearch :=
  if search.score.containsKey nodeId then search
  else { search with score := search.score.insert nodeId (weightOf weights nodeId) }

/-- Raise the score of the target of an edge when the way through the source is heavier. -/
def raise (weights : Table U64 U64) (source base : U64) (search : PathSearch) (target : U64) :
    PathSearch :=
  let candidate := base.saturatingAdd (weightOf weights target)
  if search.scoreOf target < candidate then
    { search with
      score := search.score.insert target candidate
      previous := search.previous.insert target source }
  else search

def countDown (search : PathSearch) (target : U64) : PathSearch × List U64 :=
  match search.indegree.lookup target with
  | none => (search, [])
  | some degree =>
    ({ search with indegree := search.indegree.insert target (degree - 1) },
      if degree - 1 = 0 then [target] else [])

def relax (weights : Table U64 U64) (source base : U64) (turn : PathSearch × List U64)
    (edge : IoEdge) : PathSearch × List U64 :=
  let counted := (turn.1.raise weights source base edge.toNodeId).countDown edge.toNodeId
  (counted.1, turn.2 ++ counted.2)

end PathSearch

def pathVisit (graph : IoTransactionGraph) (weights : Table U64 U64) (search : PathSearch)
    (nodeId : U64) : PathSearch × List U64 :=
  let settled := search.settle weights nodeId
  (graph.causalEdgesFrom nodeId).foldl
    (PathSearch.relax weights nodeId (settled.scoreOf nodeId)) (settled, [])

def indegrees (graph : IoTransactionGraph) : Table U64 Nat :=
  graph.causalEdges.foldl (fun degrees edge => degrees.alter edge.toNodeId 0 (· + 1))
    (graph.nodes.foldl (fun degrees node => degrees.insert node.nodeId 0) ∅)

def readyNodes (graph : IoTransactionGraph) (order : IterationOrder) : List U64 :=
  (order.visit graph.indegrees.toPairs).filterMap fun entry =>
    if entry.2 = 0 then some entry.1 else none

def lastMaximum (entries : List (U64 × U64)) : Option (U64 × U64) :=
  entries.foldl (fun best entry =>
    match best with
    | none => some entry
    | some kept => if entry.2 < kept.2 then some kept else some entry) none

/-- Follow the recorded predecessors back from a node; the path is listed from its start. -/
def traceBack (previous : Table U64 U64) : Nat → U64 → List U64
  | 0, current => [current]
  | fuel + 1, current =>
    match previous.lookup current with
    | none => [current]
    | some parent => traceBack previous fuel parent ++ [current]

/-- A node is queued at most once, so one turn for each node and each edge target suffices. -/
def pathTurns (graph : IoTransactionGraph) : Nat := graph.nodes.length + graph.edges.length

def pathSearch (graph : IoTransactionGraph) (order : IterationOrder) (weights : Table U64 U64) :
    PathSearch :=
  drainAll (graph.pathVisit weights) graph.pathTurns (graph.readyNodes order)
    ⟨graph.indegrees, ∅, ∅⟩

def longestPath (graph : IoTransactionGraph) (order : IterationOrder)
    (weights : Table U64 U64) : List U64 × U64 :=
  let search := graph.pathSearch order weights
  match lastMaximum (order.visit search.score.toPairs) with
  | none => ([], 0)
  | some (finish, value) => (traceBack search.previous graph.pathTurns finish, value)

/-! ### What the operations of the search do to its maps -/

namespace PathSearch

section

variable (weights : Table U64 U64) (search : PathSearch)

theorem score_settle (nodeId other : U64) :
    (search.settle weights nodeId).score.lookup other =
      if other = nodeId then some ((search.score.lookup nodeId).getD (weightOf weights nodeId))
      else search.score.lookup other := by
  unfold settle containsKey
  cases found : search.score.lookup nodeId with
  | none =>
    rw [if_neg (by simp)]
    exact lookup_insert_eq _ _ _ _
  | some score =>
    rw [if_pos (by simp)]
    split
    · rename_i same
      rw [same, found]
      rfl
    · rfl

@[simp] theorem previous_settle (nodeId : U64) :
    (search.settle weights nodeId).previous = search.previous := by
  unfold settle
  split <;> rfl

@[simp] theorem indegree_settle (nodeId : U64) :
    (search.settle weights nodeId).indegree = search.indegree := by
  unfold settle
  split <;> rfl

end

variable {nodeId other : U64}

theorem scoreOf_settle_of_ne (weights : Table U64 U64) (search : PathSearch)
    (different : other ≠ nodeId) :
    (search.settle weights nodeId).scoreOf other = search.scoreOf other := by
  unfold scoreOf
  rw [score_settle, if_neg different]

variable {search : PathSearch}

theorem scoreOf_of_lookup {nodeId score : U64} (scored : search.score.lookup nodeId = some score) :
    search.scoreOf nodeId = score := by
  unfold scoreOf
  rw [scored, getD_some]

theorem scoreOf_of_not_isSome {nodeId : U64} (unscored : ¬ (search.score.lookup nodeId).isSome) :
    search.scoreOf nodeId = 0 := by
  unfold scoreOf
  rw [not_isSome_iff_eq_none.mp unscored, getD_none]

section

variable (weights : Table U64 U64) (search : PathSearch)

theorem scoreOf_settle_self (nodeId : U64) :
    (search.settle weights nodeId).scoreOf nodeId =
      (search.score.lookup nodeId).getD (weightOf weights nodeId) := by
  unfold scoreOf
  rw [score_settle, if_pos rfl, getD_some]

theorem isSome_score_settle (nodeId other : U64) :
    ((search.settle weights nodeId).score.lookup other).isSome ↔
      other = nodeId ∨ (search.score.lookup other).isSome := by
  rw [score_settle]
  split
  · rename_i same
    exact ⟨fun _ => .inl same, fun _ => rfl⟩
  · rename_i different
    exact ⟨.inr, fun known => known.resolve_left different⟩

theorem scoreOf_settle_of_isSome (scored : (search.score.lookup other).isSome) :
    (search.settle weights nodeId).scoreOf other = search.scoreOf other := by
  by_cases same : other = nodeId
  · subst same
    obtain ⟨score, equal⟩ := isSome_iff_exists.mp scored
    rw [scoreOf_settle_self, equal, scoreOf, equal, getD_some, getD_some]
  · exact scoreOf_settle_of_ne weights search same

end

variable {weights : Table U64 U64} {target : U64}

theorem raise_of_lt {source base : U64}
    (heavier : search.scoreOf target < base.saturatingAdd (weightOf weights target)) :
    search.raise weights source base target =
      { search with
        score := search.score.insert target (base.saturatingAdd (weightOf weights target))
        previous := search.previous.insert target source } :=
  if_pos heavier

theorem raise_of_not_lt {source base : U64}
    (lighter : ¬ search.scoreOf target < base.saturatingAdd (weightOf weights target)) :
    search.raise weights source base target = search :=
  if_neg lighter

variable {base : U64}

section

variable (source : U64)
  (heavier : search.scoreOf target < base.saturatingAdd (weightOf weights target)) (other : U64)

include heavier

theorem score_raise_of_lt :
    (search.raise weights source base target).score.lookup other =
      if other = target then some (base.saturatingAdd (weightOf weights target))
      else search.score.lookup other := by
  rw [raise_of_lt heavier]
  exact lookup_insert_eq _ _ _ _

theorem previous_raise_of_lt :
    (search.raise weights source base target).previous.lookup other =
      if other = target then some source else search.previous.lookup other := by
  rw [raise_of_lt heavier]
  exact lookup_insert_eq _ _ _ _

end

theorem scoreOf_raise_of_ne (weights : Table U64 U64) (source base : U64) (search : PathSearch)
    {target other : U64} (different : other ≠ target) :
    (search.raise weights source base target).scoreOf other = search.scoreOf other := by
  by_cases heavier : search.scoreOf target < base.saturatingAdd (weightOf weights target)
  · unfold scoreOf
    rw [score_raise_of_lt source heavier, if_neg different]
  · rw [raise_of_not_lt heavier]

theorem scoreOf_raise_self (source : U64)
    (heavier : search.scoreOf target < base.saturatingAdd (weightOf weights target)) :
    (search.raise weights source base target).scoreOf target =
      base.saturatingAdd (weightOf weights target) := by
  unfold scoreOf
  rw [score_raise_of_lt source heavier, if_pos rfl, getD_some]

theorem isSome_score_raise (weights : Table U64 U64) (source base target : U64) {other : U64}
    (found : (search.score.lookup other).isSome) :
    ((search.raise weights source base target).score.lookup other).isSome := by
  by_cases heavier : search.scoreOf target < base.saturatingAdd (weightOf weights target)
  · rw [score_raise_of_lt source heavier]
    split
    · rfl
    · exact found
  · rw [raise_of_not_lt heavier]
    exact found

@[simp] theorem indegree_raise (weights : Table U64 U64) (source base : U64)
    (search : PathSearch) (target : U64) :
    (search.raise weights source base target).indegree = search.indegree := by
  unfold raise
  dsimp only
  split <;> rfl

theorem nodup_countDown (search : PathSearch) (target : U64) :
    (search.countDown target).2.Nodup := by
  unfold countDown
  split
  · exact nodup_nil
  · split
    · exact nodup_singleton target
    · exact nodup_nil

theorem countDown_of_lookup {degree : Nat} (found : search.indegree.lookup target = some degree) :
    search.countDown target =
      ({ search with indegree := search.indegree.insert target (degree - 1) },
        if degree - 1 = 0 then [target] else []) := by
  unfold countDown
  rw [found]

@[simp] theorem score_countDown (search : PathSearch) (target : U64) :
    (search.countDown target).1.score = search.score := by
  unfold countDown
  split <;> rfl

@[simp] theorem previous_countDown (search : PathSearch) (target : U64) :
    (search.countDown target).1.previous = search.previous := by
  unfold countDown
  split <;> rfl

@[simp] theorem scoreOf_countDown (search : PathSearch) (target nodeId : U64) :
    (search.countDown target).1.scoreOf nodeId = search.scoreOf nodeId := by
  unfold scoreOf
  rw [score_countDown]

end PathSearch

/-! ### The progress of the search -/

def nodeIds (graph : IoTransactionGraph) : List U64 := graph.nodes.map (·.nodeId)

def Causes (graph : IoTransactionGraph) (first second : U64) : Prop :=
  ∃ edge ∈ graph.causalEdges, edge.fromNodeId = first ∧ edge.toNodeId = second

def entering (edges : List IoEdge) (nodeId : U64) : Nat :=
  edges.countP fun edge => edge.toNodeId = nodeId

def pathWeight (weights : Table U64 U64) (path : List U64) : Nat :=
  (path.map fun nodeId => (weightOf weights nodeId).val).sum

def Light (graph : IoTransactionGraph) (weights : Table U64 U64) : Prop :=
  ∀ path, path.IsChain graph.Causes → pathWeight weights path < 2 ^ 64

/-- The state of the search when the nodes of `done` are settled, the edges of `used` relaxed,
and the edges of `pending`, which leave settled nodes too, still to be relaxed. -/
structure Progress (graph : IoTransactionGraph) (weights : Table U64 U64) (done : List U64)
    (used pending : List IoEdge) (search : PathSearch) (queue : List U64) : Prop where
  account : (used ++ pending).Perm
    (graph.causalEdges.filter fun edge => edge.fromNodeId ∈ done)
  degrees : ∀ nodeId ∈ graph.nodeIds, ∃ degree, search.indegree.lookup nodeId = some degree ∧
    degree + entering used nodeId = entering graph.causalEdges nodeId
  distinct : (done ++ queue).Nodup
  ready : ∀ nodeId, nodeId ∈ done ++ queue ↔
    nodeId ∈ graph.nodeIds ∧ entering used nodeId = entering graph.causalEdges nodeId
  settled : ∀ nodeId ∈ done, (search.score.lookup nodeId).isSome
  known : ∀ nodeId, (search.score.lookup nodeId).isSome → nodeId ∈ graph.nodeIds
  relaxed : ∀ edge ∈ used, (search.scoreOf edge.fromNodeId).val +
    (weightOf weights edge.toNodeId).val ≤ (search.scoreOf edge.toNodeId).val
  traced : ∀ nodeId parent, search.previous.lookup nodeId = some parent →
    parent ∈ done ∧ graph.Causes parent nodeId ∧ (search.score.lookup nodeId).isSome ∧
      (search.scoreOf nodeId).val =
        (search.scoreOf parent).val + (weightOf weights nodeId).val
  untraced : ∀ nodeId, (search.score.lookup nodeId).isSome →
    search.previous.lookup nodeId = none → search.scoreOf nodeId = weightOf weights nodeId
  ordered : ∀ before nodeId after, done = before ++ nodeId :: after →
    ∀ parent, search.previous.lookup nodeId = some parent → parent ∈ before

variable {graph : IoTransactionGraph}

theorem mem_causalEdges {edge : IoEdge} :
    edge ∈ graph.causalEdges ↔ edge ∈ graph.edges ∧ edge.confidence ≠ .contextOnly := by
  simp [causalEdges]

theorem Causes.links {first second : U64} (causes : graph.Causes first second) :
    graph.Links first second := by
  obtain ⟨edge, member, ends⟩ := causes
  exact ⟨edge, (mem_causalEdges.mp member).1, ends⟩

theorem WellFormed.causes_mem (wellFormed : graph.WellFormed) {first second : U64}
    (causes : graph.Causes first second) : first ∈ graph.nodeIds ∧ second ∈ graph.nodeIds := by
  obtain ⟨edge, member, rfl, rfl⟩ := causes
  obtain ⟨source, sourceMember, target, targetMember, sourceId, targetId, -⟩ :=
    wellFormed.endpoints edge (mem_causalEdges.mp member).1
  exact ⟨sourceId ▸ mem_map_of_mem sourceMember,
    targetId ▸ mem_map_of_mem targetMember⟩

section Search

variable {graph : IoTransactionGraph} {weights : Table U64 U64} {done : List U64}
  {used pending : List IoEdge} {search : PathSearch} {queue : List U64}

theorem Progress.used_source
    (progress : Progress graph weights done used pending search queue) {edge : IoEdge}
    (member : edge ∈ used) : edge.fromNodeId ∈ done := by
  have listed := progress.account.mem_iff.mp (mem_append_left _ member)
  simpa using (mem_filter.mp listed).2

variable {nodeId : U64}

section

variable (progress : Progress graph weights done used pending search queue)
include progress

theorem Progress.weight_alone (member : nodeId ∈ done)
    (untraced : search.previous.lookup nodeId = none) :
    pathWeight weights [nodeId] = (search.scoreOf nodeId).val := by
  rw [progress.untraced nodeId (progress.settled nodeId member) untraced]
  simp [pathWeight]

theorem Progress.traceBack_spec (fuel : Nat) (before : List U64) (nodeId : U64) (after : List U64)
    (place : done = before ++ nodeId :: after) (enough : before.length ≤ fuel) :
    (traceBack search.previous fuel nodeId).getLast? = some nodeId ∧
      (traceBack search.previous fuel nodeId).IsChain graph.Causes ∧
      pathWeight weights (traceBack search.previous fuel nodeId) =
        (search.scoreOf nodeId).val := by
  induction fuel generalizing before nodeId after with
  | zero =>
    have start : before = [] := eq_nil_of_length_eq_zero (by omega)
    subst start
    have member : nodeId ∈ done := place ▸ mem_cons_self
    refine ⟨rfl, isChain_singleton _, progress.weight_alone member ?_⟩
    cases found : search.previous.lookup nodeId with
    | none => rfl
    | some parent => cases progress.ordered [] nodeId after place parent found
  | succ fuel hypothesis =>
    have member : nodeId ∈ done := place ▸ (mem_append_right _ mem_cons_self)
    rw [traceBack]
    cases found : search.previous.lookup nodeId with
    | none => exact ⟨rfl, isChain_singleton _, progress.weight_alone member found⟩
    | some parent =>
      obtain ⟨-, causes, -, score⟩ := progress.traced nodeId parent found
      obtain ⟨earlier, between, rfl⟩ :=
        append_of_mem (progress.ordered before nodeId after place parent found)
      have parentPlace : done = earlier ++ parent :: (between ++ nodeId :: after) := by
        rw [place, append_assoc, cons_append]
      have shorter : earlier.length ≤ fuel := by
        rw [length_append, length_cons] at enough
        omega
      obtain ⟨last, chain, weight⟩ := hypothesis earlier parent _ parentPlace shorter
      refine ⟨getLast?_concat, ?_, ?_⟩
      · refine chain.append (isChain_singleton _) ?_
        intro final finalLast first firstHead
        rw [last] at finalLast
        cases finalLast
        cases firstHead
        exact causes
      · rw [score, ← weight]
        simp [pathWeight]

end

theorem Progress.pending_edge (wellFormed : graph.WellFormed) {edge : IoEdge}
    (progress : Progress graph weights done used (edge :: pending) search queue) :
    edge ∈ graph.causalEdges ∧ edge.fromNodeId ∈ done ∧ edge.toNodeId ∈ graph.nodeIds ∧
      entering used edge.toNodeId < entering graph.causalEdges edge.toNodeId ∧
      edge.toNodeId ∉ done ++ queue := by
  have member : edge ∈ graph.causalEdges.filter fun edge => edge.fromNodeId ∈ done :=
    progress.account.mem_iff.mp (mem_append_right _ mem_cons_self)
  obtain ⟨causal, source⟩ := mem_filter.mp member
  have target := (wellFormed.causes_mem ⟨edge, causal, rfl, rfl⟩).2
  have fewer : entering used edge.toNodeId < entering graph.causalEdges edge.toNodeId := by
    have counted := progress.account.countP_eq fun other => other.toNodeId = edge.toNodeId
    have bounded : (graph.causalEdges.filter fun edge => edge.fromNodeId ∈ done).countP
        (fun other => other.toNodeId = edge.toNodeId) ≤
        graph.causalEdges.countP fun other => other.toNodeId = edge.toNodeId :=
      filter_sublist.countP_le
    rw [← counted, countP_append, countP_cons_of_pos (by simp)] at bounded
    unfold entering
    omega
  refine ⟨causal, by simpa using source, target, fewer, fun listed => ?_⟩
  have same := ((progress.ready _).mp listed).2
  omega

theorem Progress.candidate_val (light : graph.Light weights) (wellFormed : graph.WellFormed)
    {edge : IoEdge}
    (progress : Progress graph weights done used (edge :: pending) search queue) :
    ((search.scoreOf edge.fromNodeId).saturatingAdd (weightOf weights edge.toNodeId)).val =
      (search.scoreOf edge.fromNodeId).val + (weightOf weights edge.toNodeId).val := by
  obtain ⟨causal, source, -⟩ := progress.pending_edge wellFormed
  obtain ⟨before, after, place⟩ := append_of_mem source
  obtain ⟨last, chain, weight⟩ :=
    progress.traceBack_spec before.length before edge.fromNodeId after place le_rfl
  have extended : (traceBack search.previous before.length edge.fromNodeId ++
      [edge.toNodeId]).IsChain graph.Causes := by
    refine chain.append (isChain_singleton _) ?_
    intro final finalLast first firstHead
    rw [last] at finalLast
    cases finalLast
    cases firstHead
    exact ⟨edge, causal, rfl, rfl⟩
  have bounded := light _ extended
  refine Word.saturatingAdd_of_lt _ _ ?_
  rw [← weight]
  simpa [pathWeight] using bounded

section

variable (wellFormed : graph.WellFormed) {edge : IoEdge}
  (progress : Progress graph weights done used (edge :: pending) search queue)

include wellFormed progress

theorem Progress.ne_target : ∀ nodeId ∈ done, nodeId ≠ edge.toNodeId := by
  rintro nodeId member rfl
  obtain ⟨-, -, -, -, fresh⟩ := progress.pending_edge wellFormed
  exact fresh (mem_append_left _ member)

theorem Progress.scoreOf_raise (source base : U64) :
    ∀ nodeId ∈ done,
      (search.raise weights source base edge.toNodeId).scoreOf nodeId = search.scoreOf nodeId :=
  fun nodeId member =>
    PathSearch.scoreOf_raise_of_ne weights _ _ search (progress.ne_target wellFormed nodeId member)

end

section

variable (light : graph.Light weights) (wellFormed : graph.WellFormed) {edge : IoEdge}
  (progress : Progress graph weights done used (edge :: pending) search queue)

include light wellFormed progress

theorem Progress.traced_raise
    (heavier : search.scoreOf edge.toNodeId <
      (search.scoreOf edge.fromNodeId).saturatingAdd (weightOf weights edge.toNodeId)) :
    let raised := search.raise weights edge.fromNodeId (search.scoreOf edge.fromNodeId)
      edge.toNodeId
    ∀ nodeId parent, raised.previous.lookup nodeId = some parent →
      parent ∈ done ∧ graph.Causes parent nodeId ∧ (raised.score.lookup nodeId).isSome ∧
        (raised.scoreOf nodeId).val =
          (raised.scoreOf parent).val + (weightOf weights nodeId).val := by
  intro raised nodeId parent found
  obtain ⟨causal, source, -, -, -⟩ := progress.pending_edge wellFormed
  have kept := progress.scoreOf_raise wellFormed edge.fromNodeId
    (search.scoreOf edge.fromNodeId)
  rw [PathSearch.previous_raise_of_lt edge.fromNodeId heavier] at found
  split at found
  · rename_i same
    cases found
    refine ⟨source, ⟨edge, causal, rfl, same.symm⟩, ?_, ?_⟩
    · rw [PathSearch.score_raise_of_lt edge.fromNodeId heavier, if_pos same]
      rfl
    · rw [same, PathSearch.scoreOf_raise_self edge.fromNodeId heavier, kept _ source]
      exact progress.candidate_val light wellFormed
  · rename_i different
    obtain ⟨parentDone, causes, scored, score⟩ := progress.traced nodeId parent found
    refine ⟨parentDone, causes, PathSearch.isSome_score_raise weights _ _ _ scored, ?_⟩
    rw [PathSearch.scoreOf_raise_of_ne weights _ _ search different, kept parent parentDone]
    exact score

theorem Progress.raise_of_lt
    (heavier : search.scoreOf edge.toNodeId <
      (search.scoreOf edge.fromNodeId).saturatingAdd (weightOf weights edge.toNodeId)) :
    Progress graph weights done used (edge :: pending)
      (search.raise weights edge.fromNodeId (search.scoreOf edge.fromNodeId) edge.toNodeId)
      queue := by
  obtain ⟨-, -, target, -, -⟩ := progress.pending_edge wellFormed
  have scores := PathSearch.score_raise_of_lt edge.fromNodeId heavier
  have parents := PathSearch.previous_raise_of_lt edge.fromNodeId heavier
  refine ⟨progress.account, ?_, progress.distinct, progress.ready, ?_, ?_, ?_,
    progress.traced_raise light wellFormed heavier, ?_, ?_⟩
  · rw [PathSearch.indegree_raise]
    exact progress.degrees
  · exact fun nodeId member =>
      PathSearch.isSome_score_raise weights _ _ _ (progress.settled nodeId member)
  · intro nodeId found
    rw [scores] at found
    split at found
    · rename_i same
      rw [same]
      exact target
    · exact progress.known nodeId found
  · intro other member
    rw [progress.scoreOf_raise wellFormed _ _ _ (progress.used_source member)]
    refine le_trans (progress.relaxed other member) ?_
    by_cases same : other.toNodeId = edge.toNodeId
    · rw [same, PathSearch.scoreOf_raise_self edge.fromNodeId heavier]
      exact le_of_lt (Fin.lt_def.mp heavier)
    · rw [PathSearch.scoreOf_raise_of_ne weights _ _ search same]
  · intro nodeId found untraced
    rw [parents] at untraced
    split at untraced
    · cases untraced
    · rename_i different
      rw [scores, if_neg different] at found
      rw [PathSearch.scoreOf_raise_of_ne weights _ _ search different]
      exact progress.untraced nodeId found untraced
  · intro before nodeId after place parent found
    have member : nodeId ∈ done := place ▸ (mem_append_right _ mem_cons_self)
    rw [parents, if_neg (progress.ne_target wellFormed nodeId member)] at found
    exact progress.ordered before nodeId after place parent found

theorem Progress.raise :
    let raised := search.raise weights edge.fromNodeId (search.scoreOf edge.fromNodeId)
      edge.toNodeId
    Progress graph weights done used (edge :: pending) raised queue ∧
      (∀ nodeId ∈ done, raised.scoreOf nodeId = search.scoreOf nodeId) ∧
      (raised.scoreOf edge.fromNodeId).val + (weightOf weights edge.toNodeId).val ≤
        (raised.scoreOf edge.toNodeId).val := by
  intro raised
  obtain ⟨-, source, -, -, -⟩ := progress.pending_edge wellFormed
  have uncut := progress.candidate_val light wellFormed
  by_cases heavier : search.scoreOf edge.toNodeId <
      (search.scoreOf edge.fromNodeId).saturatingAdd (weightOf weights edge.toNodeId)
  · have kept : ∀ nodeId ∈ done, raised.scoreOf nodeId = search.scoreOf nodeId :=
      progress.scoreOf_raise wellFormed _ _
    refine ⟨progress.raise_of_lt light wellFormed heavier, kept, ?_⟩
    rw [PathSearch.scoreOf_raise_self edge.fromNodeId heavier, kept _ source]
    exact le_of_eq uncut.symm
  · have shape : raised = search := PathSearch.raise_of_not_lt heavier
    rw [shape]
    refine ⟨progress, fun _ _ => rfl, ?_⟩
    rw [← uncut]
    exact Fin.le_def.mp (not_lt.mp heavier)

end

theorem entering_snoc (used : List IoEdge) (edge : IoEdge) (nodeId : U64) :
    entering (used ++ [edge]) nodeId =
      entering used nodeId + if nodeId = edge.toNodeId then 1 else 0 := by
  simp [entering, countP_append, countP_cons, eq_comm]

section

variable (wellFormed : graph.WellFormed) {edge : IoEdge}
  (progress : Progress graph weights done used (edge :: pending) search queue)

include wellFormed progress

theorem Progress.degrees_countDown :
    ∀ nodeId ∈ graph.nodeIds, ∃ degree,
      (search.countDown edge.toNodeId).1.indegree.lookup nodeId = some degree ∧
        degree + entering (used ++ [edge]) nodeId = entering graph.causalEdges nodeId := by
  obtain ⟨-, -, target, fewer, -⟩ := progress.pending_edge wellFormed
  obtain ⟨degree, found, balance⟩ := progress.degrees edge.toNodeId target
  intro nodeId member
  rw [PathSearch.countDown_of_lookup found, entering_snoc]
  show ∃ degree', (search.indegree.insert edge.toNodeId (degree - 1)).lookup nodeId =
    some degree' ∧ _
  rw [lookup_insert_eq]
  by_cases same : nodeId = edge.toNodeId
  · rw [if_pos same, if_pos same, same]
    exact ⟨degree - 1, rfl, by omega⟩
  · rw [if_neg same, if_neg same]
    exact progress.degrees nodeId member

theorem Progress.mem_countDown (nodeId : U64) :
    nodeId ∈ (search.countDown edge.toNodeId).2 ↔
      nodeId = edge.toNodeId ∧
        entering (used ++ [edge]) nodeId = entering graph.causalEdges nodeId := by
  obtain ⟨-, -, target, fewer, -⟩ := progress.pending_edge wellFormed
  obtain ⟨degree, found, balance⟩ := progress.degrees edge.toNodeId target
  rw [PathSearch.countDown_of_lookup found, entering_snoc]
  by_cases last : degree - 1 = 0
  · simp only [last, if_true, mem_singleton]
    refine ⟨?_, And.left⟩
    rintro rfl
    exact ⟨rfl, by rw [if_pos rfl]; omega⟩
  · simp only [last, if_false, not_mem_nil, false_iff]
    rintro ⟨rfl, complete⟩
    rw [if_pos rfl] at complete
    omega

theorem Progress.countDown
    (relaxed : (search.scoreOf edge.fromNodeId).val + (weightOf weights edge.toNodeId).val ≤
      (search.scoreOf edge.toNodeId).val) :
    Progress graph weights done (used ++ [edge]) pending
      (search.countDown edge.toNodeId).1 (queue ++ (search.countDown edge.toNodeId).2) := by
  obtain ⟨-, -, target, fewer, fresh⟩ := progress.pending_edge wellFormed
  have handed := progress.mem_countDown wellFormed
  refine ⟨?_, progress.degrees_countDown wellFormed, ?_, ?_, ?_, ?_, ?_, ?_, ?_, ?_⟩
  · rw [append_assoc]
    exact progress.account
  · rw [← append_assoc]
    refine List.Nodup.append progress.distinct (search.nodup_countDown edge.toNodeId) ?_
    intro nodeId known listed
    exact fresh (((handed nodeId).mp listed).1 ▸ known)
  · intro nodeId
    rw [← append_assoc, mem_append, progress.ready nodeId, handed, entering_snoc]
    by_cases same : nodeId = edge.toNodeId
    · subst same
      simp [target, ne_of_lt fewer]
    · simp [same]
  · rw [PathSearch.score_countDown]
    exact progress.settled
  · rw [PathSearch.score_countDown]
    exact progress.known
  · simp only [PathSearch.scoreOf_countDown]
    exact Run.forall_mem_snoc progress.relaxed relaxed
  · simp only [PathSearch.scoreOf_countDown, PathSearch.score_countDown,
      PathSearch.previous_countDown]
    exact progress.traced
  · simp only [PathSearch.scoreOf_countDown, PathSearch.score_countDown,
      PathSearch.previous_countDown]
    exact progress.untraced
  · rw [PathSearch.previous_countDown]
    exact progress.ordered

end

variable {made : List U64}

theorem Progress.relax (light : graph.Light weights) (wellFormed : graph.WellFormed)
    {edge : IoEdge}
    (progress : Progress graph weights done used (edge :: pending) search (queue ++ made)) :
    let turn := PathSearch.relax weights edge.fromNodeId (search.scoreOf edge.fromNodeId)
      (search, made) edge
    Progress graph weights done (used ++ [edge]) pending turn.1 (queue ++ turn.2) ∧
      ∀ nodeId ∈ done, turn.1.scoreOf nodeId = search.scoreOf nodeId := by
  obtain ⟨raised, kept, relaxed⟩ := progress.raise light wellFormed
  have counted := raised.countDown wellFormed relaxed
  rw [append_assoc] at counted
  refine ⟨counted, fun nodeId member => ?_⟩
  rw [← kept nodeId member]
  exact PathSearch.scoreOf_countDown _ _ _

theorem Progress.relaxAll (light : graph.Light weights) (wellFormed : graph.WellFormed)
    {source base : U64} (leaves : ∀ edge ∈ pending, edge.fromNodeId = source)
    (same : search.scoreOf source = base)
    (progress : Progress graph weights done used pending search (queue ++ made)) :
    let turn := pending.foldl (PathSearch.relax weights source base) (search, made)
    Progress graph weights done (used ++ pending) [] turn.1 (queue ++ turn.2) := by
  induction pending generalizing used search made with
  | nil =>
    rw [append_nil]
    exact progress
  | cons edge rest hypothesis =>
    have sourceDone := (progress.pending_edge wellFormed).2.1
    have leaving := leaves edge mem_cons_self
    obtain ⟨next, kept⟩ := progress.relax light wellFormed
    rw [leaving, same] at next kept
    rw [foldl_cons, append_cons used edge rest]
    refine hypothesis (fun other member => leaves other (mem_cons_of_mem _ member))
      ?_ next
    exact (kept source (leaving ▸ sourceDone)).trans same

theorem Progress.weight_le (progress : Progress graph weights done used pending search queue)
    (scored : (search.score.lookup nodeId).isSome) :
    (weightOf weights nodeId).val ≤ (search.scoreOf nodeId).val := by
  cases found : search.previous.lookup nodeId with
  | none => rw [progress.untraced nodeId scored found]
  | some parent =>
    have score := (progress.traced nodeId parent found).2.2.2
    omega

theorem causalEdgesFrom_account (graph : IoTransactionGraph) {done : List U64}
    (unsettled : nodeId ∉ done) :
    ((graph.causalEdges.filter fun edge => edge.fromNodeId ∈ done) ++
      graph.causalEdgesFrom nodeId).Perm
      (graph.causalEdges.filter fun edge => edge.fromNodeId ∈ done ++ [nodeId]) := by
  unfold causalEdges causalEdgesFrom
  induction graph.edges with
  | nil => exact .refl _
  | cons edge rest hypothesis =>
    by_cases causal : edge.confidence = .contextOnly
    · simpa [causal] using hypothesis
    · by_cases same : edge.fromNodeId = nodeId
      · simpa [causal, same, unsettled] using perm_middle.trans (hypothesis.cons edge)
      · by_cases settled : edge.fromNodeId ∈ done
        · simpa [causal, same, settled] using hypothesis
        · simpa [causal, same, settled] using hypothesis

theorem Progress.settle (progress : Progress graph weights done used [] search (nodeId :: queue)) :
    Progress graph weights (done ++ [nodeId]) used (graph.causalEdgesFrom nodeId)
      (search.settle weights nodeId) queue := by
  have unsettled : nodeId ∉ done := fun member =>
    disjoint_of_nodup_append progress.distinct member mem_cons_self
  have moved : (done ++ [nodeId]) ++ queue = done ++ nodeId :: queue := by
    rw [append_assoc, singleton_append]
  have present := PathSearch.isSome_score_settle weights search nodeId
  have scored : ∀ other, (search.score.lookup other).isSome →
      (search.settle weights nodeId).scoreOf other = search.scoreOf other := fun _ found =>
    PathSearch.scoreOf_settle_of_isSome weights search found
  refine ⟨?_, ?_, ?_, ?_, ?_, ?_, ?_, ?_, ?_, ?_⟩
  · have account := progress.account
    rw [append_nil] at account
    exact (account.append_right _).trans (graph.causalEdgesFrom_account unsettled)
  · rw [PathSearch.indegree_settle]
    exact progress.degrees
  · rw [moved]
    exact progress.distinct
  · intro other
    rw [moved]
    exact progress.ready other
  · intro other member
    refine (present other).mpr ?_
    rcases mem_append.mp member with old | new
    · exact .inr (progress.settled other old)
    · exact .inl (mem_singleton.mp new)
  · intro other found
    rcases (present other).mp found with rfl | old
    · exact ((progress.ready other).mp (mem_append_right _ mem_cons_self)).1
    · exact progress.known other old
  · intro edge member
    have before := progress.relaxed edge member
    rw [scored _ (progress.settled _ (progress.used_source member))]
    by_cases found : (search.score.lookup edge.toNodeId).isSome
    · rw [scored _ found]
      exact before
    · rw [PathSearch.scoreOf_of_not_isSome found] at before
      exact le_trans before (Nat.zero_le _)
  · intro other parent found
    rw [PathSearch.previous_settle] at found
    obtain ⟨parentDone, causes, known, score⟩ := progress.traced other parent found
    refine ⟨mem_append_left _ parentDone, causes, (present other).mpr (.inr known), ?_⟩
    rw [scored other known, scored parent (progress.settled parent parentDone)]
    exact score
  · intro other found untraced
    rw [PathSearch.previous_settle] at untraced
    by_cases known : (search.score.lookup other).isSome
    · rw [scored other known]
      exact progress.untraced other known untraced
    · obtain rfl := ((present other).mp found).resolve_right known
      rw [PathSearch.scoreOf_settle_self, not_isSome_iff_eq_none.mp known]
      rfl
  · intro before other after place parent found
    rw [PathSearch.previous_settle] at found
    have parentDone := (progress.traced other parent found).1
    rcases eq_nil_or_concat after with rfl | ⟨rest, last, rfl⟩
    · obtain ⟨same, -⟩ := append_inj' place rfl
      exact same ▸ parentDone
    · have shorter : done ++ [nodeId] = (before ++ other :: rest) ++ [last] := by
        rw [place, append_assoc, cons_append, concat_eq_append]
      exact progress.ordered before other rest (append_inj' shorter rfl).1 parent found

theorem Progress.visit (light : graph.Light weights) (wellFormed : graph.WellFormed)
    (progress : Progress graph weights done used [] search (nodeId :: queue)) :
    Progress graph weights (done ++ [nodeId]) (used ++ graph.causalEdgesFrom nodeId) []
      (graph.pathVisit weights search nodeId).1
      (queue ++ (graph.pathVisit weights search nodeId).2) := by
  have settled := progress.settle
  rw [← append_nil queue] at settled
  refine settled.relaxAll light wellFormed (fun edge member => ?_) rfl
  have leaving := (mem_filter.mp member).2
  simp only [decide_eq_true_eq] at leaving
  exact leaving.1

end Search

end IoTransactionGraph

end EbpfStudio
