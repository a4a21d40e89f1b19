/-
This file models the search for the file origins of a node of a transaction graph.

A visit is a node with a confidence. A work list follows the edges back, weakens the confidence by
that of each edge, and records the strongest visit of every identity. Each visit is made once, so
the search ends and has made exactly the visits that lead back to its start (`searchOrigins_spec`).
-/

import EbpfStudio.Protocol.Graph
import EbpfStudio.Library.Table

namespace EbpfStudio

open Relation Worklist List Option Table

structure FileOriginView where
  file : FileIdentity
  path : Option PathSnapshot
  confidence : EdgeConfidence
  incomplete : Bool
  deriving DecidableEq

/-- The fields of an identity in declared order; an absent one comes before every present
one. -/
def FileIdentity.orderKey (identity : FileIdentity) : List Nat :=
  [identity.fsDeviceMajor.val, identity.fsDeviceMinor.val, identity.inode.val,
    identity.inodeGeneration.elim 0 (·.val + 1), identity.mountId.elim 0 (·.val + 1)]

theorem EdgeConfidence.weakest_eq_exact {first second : EdgeConfidence} :
    first.weakest second = .exact ↔ first = .exact ∧ second = .exact := by
  cases first <;> cases second <;> decide

def IoEdge.hasEvidence (matchType : String) (edge : IoEdge) : Bool :=
  edge.evidence.any fun evidence => evidence.matchType = matchType

namespace IoTransactionGraph

/-- The path of a node was looked up separately when an edge that leaves the node says so. -/
def pathInferred (graph : IoTransactionGraph) (nodeId : U64) : Bool :=
  graph.edges.any fun edge => edge.fromNodeId = nodeId && edge.hasEvidence "inferred_path_snapshot"

def originAt (graph : IoTransactionGraph) (visit : U64 × EdgeConfidence) :
    Option FileOriginView := do
  let node ← graph.findNode visit.1
  let file ← node.file
  some
    { file := file
      path := node.path
      confidence :=
        if graph.pathInferred node.nodeId then visit.2.weakest .probable else visit.2
      incomplete := false }

def edgesInto (graph : IoTransactionGraph) (nodeId : U64) : List IoEdge :=
  graph.edges.filter fun edge => edge.toNodeId = nodeId

end IoTransactionGraph

def recordOrigin (origins : Table FileIdentity FileOriginView) (candidate : FileOriginView) :
    Table FileIdentity FileOriginView :=
  match origins.lookup candidate.file with
  | none => origins.insert candidate.file candidate
  | some existing =>
    if existing.confidence.rank < candidate.confidence.rank then
      origins.insert candidate.file candidate
    else origins

structure OriginSearch where
  seen : List (U64 × EdgeConfidence) := []
  incomplete : Bool := false
  origins : Table FileIdentity FileOriginView := ∅

namespace IoTransactionGraph

/-- One turn of the search: skip a visit made before, else record the origin found and queue
the sources of the edges that lead here. -/
def originVisit (graph : IoTransactionGraph) (search : OriginSearch)
    (visit : U64 × EdgeConfidence) : OriginSearch × List (U64 × EdgeConfidence) :=
  if visit ∈ search.seen then (search, [])
  else
    ({ seen := visit :: search.seen
       incomplete := search.incomplete ||
         (graph.edgesInto visit.1).any (·.hasEvidence "direct_bio_request_incomplete")
       origins := (graph.originAt visit).elim search.origins (recordOrigin search.origins) },
      (graph.edgesInto visit.1).map fun edge =>
        (edge.fromNodeId, visit.2.weakest edge.confidence))

/-- Every edge is queued at most once for each of the four confidences, so this many turns
suffice. -/
def searchOrigins (graph : IoTransactionGraph) (nodeId : U64) : OriginSearch :=
  drainAll graph.originVisit (4 * graph.edges.length + 1) [(nodeId, .exact)] {}

def fileOriginsFor (graph : IoTransactionGraph) (nodeId : U64) : List FileOriginView :=
  let search := graph.searchOrigins nodeId
  ((search.origins.toPairs.map (·.2)).insertionSort fun first second =>
      first.file.orderKey ≤ second.file.orderKey).map
    fun origin => { origin with incomplete := search.incomplete }

def Precedes (graph : IoTransactionGraph) (visit next : U64 × EdgeConfidence) : Prop :=
  ∃ edge ∈ graph.edges, edge.toNodeId = visit.1 ∧
    next = (edge.fromNodeId, visit.2.weakest edge.confidence)

variable {graph : IoTransactionGraph}

theorem mem_edgesInto {nodeId : U64} {edge : IoEdge} :
    edge ∈ graph.edgesInto nodeId ↔ edge ∈ graph.edges ∧ edge.toNodeId = nodeId := by
  simp [edgesInto]

theorem mem_sources (graph : IoTransactionGraph) (visit next : U64 × EdgeConfidence) :
    (next ∈ (graph.edgesInto visit.1).map fun edge =>
        (edge.fromNodeId, visit.2.weakest edge.confidence)) ↔ graph.Precedes visit next := by
  simp only [List.mem_map, mem_edgesInto, and_assoc]
  exact exists_congr fun _ => and_congr_right fun _ => and_congr_right fun _ => eq_comm

theorem originAt_eq_some {visit : U64 × EdgeConfidence} {view : FileOriginView}
    (at_ : graph.originAt visit = some view) :
    ∃ node, graph.findNode visit.1 = some node ∧ node.file = some view.file ∧
      node.path = view.path ∧
      view.confidence =
        (if graph.pathInferred node.nodeId then visit.2.weakest .probable else visit.2) ∧
      view.incomplete = false := by
  unfold originAt at at_
  cases found : graph.findNode visit.1 with
  | none =>
    rw [found] at at_
    cases at_
  | some node =>
    cases identity : node.file with
    | none => simp [found, identity] at at_
    | some file =>
      simp only [found, identity, bind_eq_bind, bind_some,
        some.injEq] at at_
      subst at_
      exact ⟨node, rfl, identity, rfl, rfl, rfl⟩

/-- The visits that lead back to a node with the confidence its search starts from. -/
def Visited (graph : IoTransactionGraph) (nodeId : U64) (visit : U64 × EdgeConfidence) : Prop :=
  ReflTransGen graph.Precedes (nodeId, .exact) visit

theorem Visited.exact_source {nodeId current : U64}
    (visited : graph.Visited nodeId (current, .exact)) :
    current = nodeId ∨ ∃ edge ∈ graph.edges, edge.fromNodeId = current ∧
      edge.confidence = .exact := by
  rcases ReflTransGen.cases_tail visited with start | ⟨before, -, edge, member, -, same⟩
  · exact Or.inl (congrArg Prod.fst start)
  · refine Or.inr ⟨edge, member, (congrArg Prod.fst same).symm, ?_⟩
    exact (EdgeConfidence.weakest_eq_exact.mp (congrArg Prod.snd same).symm).2

def confidences : List EdgeConfidence := [.exact, .probable, .probableAsync, .contextOnly]

def edgeVisits (graph : IoTransactionGraph) : List (U64 × EdgeConfidence) :=
  confidences.flatMap fun confidence => graph.edges.map fun edge => (edge.toNodeId, confidence)

theorem count_map_pair (edges : List IoEdge) (nodeId : U64)
    (confidence other : EdgeConfidence) :
    (edges.map fun edge => (edge.toNodeId, confidence)).count (nodeId, other) =
      if confidence = other then (edges.filter fun edge => edge.toNodeId = nodeId).length
      else 0 := by
  induction edges with
  | nil => simp
  | cons edge rest hypothesis =>
    rw [map_cons, count_cons, hypothesis, filter_cons]
    by_cases same : confidence = other <;> by_cases into : edge.toNodeId = nodeId <;>
      simp [same, into]

theorem count_edgeVisits (graph : IoTransactionGraph) (visit : U64 × EdgeConfidence) :
    graph.edgeVisits.count visit = (graph.edgesInto visit.1).length := by
  obtain ⟨nodeId, confidence⟩ := visit
  unfold edgeVisits confidences edgesInto
  simp only [flatMap_cons, flatMap_nil, append_nil, count_append,
    count_map_pair]
  cases confidence <;> simp

theorem length_edgeVisits (graph : IoTransactionGraph) :
    graph.edgeVisits.length = 4 * graph.edges.length := by
  simp only [edgeVisits, confidences, flatMap_cons, flatMap_nil, append_nil,
    length_append, length_map]
  omega

/-- The visits that wait for their first turn pay for the items still to be queued. -/
def unmadeVisits (graph : IoTransactionGraph) (search : OriginSearch) : Nat :=
  graph.edgeVisits.countP fun visit => visit ∉ search.seen

/-- The origins are those of the visits made, the strongest for every identity. -/
structure Records (graph : IoTransactionGraph) (seen : List (U64 × EdgeConfidence))
    (origins : Table FileIdentity FileOriginView) : Prop where
  found : ∀ file view, origins.lookup file = some view →
    view.file = file ∧ ∃ visit ∈ seen, graph.originAt visit = some view
  strongest : ∀ visit ∈ seen, ∀ view, graph.originAt visit = some view →
    ∃ best, origins.lookup view.file = some best ∧ view.confidence.rank ≤ best.confidence.rank

/-- The search has made or queued everything that precedes a visit it made, and only visits
that lead back to the start. -/
structure OriginInvariant (graph : IoTransactionGraph) (nodeId : U64) (search : OriginSearch)
    (queue : List (U64 × EdgeConfidence)) : Prop where
  reached : ∀ visit, visit ∈ search.seen ∨ visit ∈ queue → graph.Visited nodeId visit
  started : (nodeId, EdgeConfidence.exact) ∈ search.seen ∨ (nodeId, .exact) ∈ queue
  closed : ∀ visit ∈ search.seen, ∀ next, graph.Precedes visit next →
    next ∈ search.seen ∨ next ∈ queue
  records : graph.Records search.seen search.origins

end IoTransactionGraph

theorem lookup_recordOrigin (origins : Table FileIdentity FileOriginView)
    (candidate : FileOriginView) (file : FileIdentity) :
    (recordOrigin origins candidate).lookup file =
      if file = candidate.file then
        some ((origins.lookup candidate.file).elim candidate fun existing =>
          if existing.confidence.rank < candidate.confidence.rank then candidate else existing)
      else origins.lookup file := by
  unfold recordOrigin
  cases found : origins.lookup candidate.file with
  | none => exact lookup_insert_eq ..
  | some existing =>
    dsimp only [elim_some]
    by_cases stronger : existing.confidence.rank < candidate.confidence.rank
    · rw [if_pos stronger, if_pos stronger]
      exact lookup_insert_eq ..
    · rw [if_neg stronger, if_neg stronger]
      by_cases same : file = candidate.file
      · rw [if_pos same, same, found]
      · rw [if_neg same]

theorem lookup_recordOrigin_cases {origins : Table FileIdentity FileOriginView}
    {candidate view : FileOriginView} {file : FileIdentity}
    (found : (recordOrigin origins candidate).lookup file = some view) :
    (file = candidate.file ∧ view = candidate) ∨ origins.lookup file = some view := by
  rw [lookup_recordOrigin] at found
  by_cases same : file = candidate.file
  · rw [if_pos same] at found
    cases old : origins.lookup candidate.file with
    | none =>
      rw [old] at found
      cases found
      exact Or.inl ⟨same, rfl⟩
    | some existing =>
      rw [old, elim_some, some.injEq] at found
      split at found
      · exact Or.inl ⟨same, found.symm⟩
      · right
        rw [same, old, found]
  · rw [if_neg same] at found
    exact Or.inr found

theorem recordOrigin_records (origins : Table FileIdentity FileOriginView)
    (candidate : FileOriginView) :
    ∃ best, (recordOrigin origins candidate).lookup candidate.file = some best ∧
      candidate.confidence.rank ≤ best.confidence.rank := by
  rw [lookup_recordOrigin, if_pos rfl]
  refine ⟨_, rfl, ?_⟩
  cases origins.lookup candidate.file with
  | none => exact le_rfl
  | some existing =>
    dsimp only [elim_some]
    split
    · exact le_rfl
    · rename_i weaker
      exact not_lt.mp weaker

namespace IoTransactionGraph

variable {graph : IoTransactionGraph}

theorem Records.visit {seen : List (U64 × EdgeConfidence)}
    {origins : Table FileIdentity FileOriginView} (records : graph.Records seen origins)
    (visit : U64 × EdgeConfidence) :
    graph.Records (visit :: seen)
      ((graph.originAt visit).elim origins (recordOrigin origins)) := by
  have earlier : ∀ file view, origins.lookup file = some view →
      view.file = file ∧ ∃ made ∈ visit :: seen, graph.originAt made = some view := by
    intro file view found
    obtain ⟨same, made, member, at_⟩ := records.found file view found
    exact ⟨same, made, mem_cons_of_mem _ member, at_⟩
  cases here : graph.originAt visit with
  | none =>
    refine ⟨earlier, fun other member view at_ => ?_⟩
    rcases mem_cons.mp member with rfl | old
    · rw [here] at at_
      cases at_
    · exact records.strongest other old view at_
  | some candidate =>
    rw [elim_some]
    refine ⟨fun file view found => ?_, fun other member view at_ => ?_⟩
    · rcases lookup_recordOrigin_cases found with ⟨rfl, rfl⟩ | old
      · exact ⟨rfl, visit, mem_cons_self, here⟩
      · exact earlier file view old
    · rcases mem_cons.mp member with rfl | old
      · obtain rfl : candidate = view := some.inj (here.symm.trans at_)
        exact recordOrigin_records origins candidate
      · obtain ⟨best, kept, below⟩ := records.strongest other old view at_
        rw [lookup_recordOrigin]
        by_cases same : view.file = candidate.file
        · rw [if_pos same, ← same, kept, elim_some]
          refine ⟨_, rfl, below.trans ?_⟩
          split
          · rename_i stronger
            exact stronger.le
          · exact le_rfl
        · rw [if_neg same]
          exact ⟨best, kept, below⟩

section

variable (graph : IoTransactionGraph) (nodeId : U64)

theorem originInvariant_visit (search : OriginSearch) (visit : U64 × EdgeConfidence)
    (queue : List (U64 × EdgeConfidence))
    (holds : graph.OriginInvariant nodeId search (visit :: queue)) :
    graph.OriginInvariant nodeId (graph.originVisit search visit).1
        (queue ++ (graph.originVisit search visit).2) ∧
      graph.unmadeVisits (graph.originVisit search visit).1 +
        (graph.originVisit search visit).2.length ≤ graph.unmadeVisits search := by
  have explores : Explores graph.Precedes (nodeId, .exact) search.seen (visit :: queue) :=
    ⟨holds.reached, holds.started, holds.closed⟩
  unfold originVisit
  by_cases old : visit ∈ search.seen
  · rw [if_pos old, append_nil]
    have rest := explores.skip old
    exact ⟨⟨rest.reached, rest.started, rest.closed, holds.records⟩, le_rfl⟩
  · rw [if_neg old]
    have next := explores.mark (graph.mem_sources visit)
    refine ⟨⟨next.reached, next.started, next.closed, holds.records.visit visit⟩, ?_⟩
    rw [length_map, ← graph.count_edgeVisits visit]
    exact (countP_unmarked_mark graph.edgeVisits old).le

theorem originInvariant_start : graph.OriginInvariant nodeId {} [(nodeId, .exact)] := by
  have first : Explores graph.Precedes (nodeId, .exact) [] [(nodeId, .exact)] := explores_start
  refine ⟨first.reached, first.started, first.closed, ?_, ?_⟩
  · intro file view found
    cases found
  · intro visit made
    exact absurd made not_mem_nil

theorem turns_suffice :
    [(nodeId, EdgeConfidence.exact)].length + graph.unmadeVisits {} ≤
      4 * graph.edges.length + 1 := by
  have most : graph.unmadeVisits {} ≤ graph.edgeVisits.length := countP_le_length
  rw [length_edgeVisits] at most
  rw [length_singleton]
  omega

theorem searchOrigins_induction {invariant : OriginSearch → List (U64 × EdgeConfidence) → Prop}
    (initial : invariant {} [(nodeId, .exact)])
    (preserved : ∀ search visit queue, graph.OriginInvariant nodeId search (visit :: queue) →
      invariant search (visit :: queue) →
      invariant (graph.originVisit search visit).1
        (queue ++ (graph.originVisit search visit).2)) :
    graph.OriginInvariant nodeId (graph.searchOrigins nodeId) [] ∧
      invariant (graph.searchOrigins nodeId) [] := by
  let both (search : OriginSearch) (queue : List (U64 × EdgeConfidence)) : Prop :=
    graph.OriginInvariant nodeId search queue ∧ invariant search queue
  have step : ∀ search visit queue, both search (visit :: queue) →
      both (graph.originVisit search visit).1 (queue ++ (graph.originVisit search visit).2) ∧
        graph.unmadeVisits (graph.originVisit search visit).1 +
          (graph.originVisit search visit).2.length ≤ graph.unmadeVisits search := by
    rintro search visit queue ⟨holds, kept⟩
    obtain ⟨next, paid⟩ := graph.originInvariant_visit nodeId search visit queue holds
    exact ⟨⟨next, preserved search visit queue holds kept⟩, paid⟩
  have holds : both {} [(nodeId, .exact)] := ⟨graph.originInvariant_start nodeId, initial⟩
  exact drainAll_spec graph.unmadeVisits step _ _ _ (graph.turns_suffice nodeId) holds

theorem searchOrigins_eq_iterate :
    (turn graph.originVisit)^[4 * graph.edges.length + 1]
        (({} : OriginSearch), [(nodeId, EdgeConfidence.exact)]) =
      (graph.searchOrigins nodeId, []) := by
  refine Prod.ext ?_ ?_
  · exact (drainAll_eq_iterate _ _ _ _).symm
  · exact iterate_turn_drained graph.unmadeVisits (graph.originInvariant_visit nodeId) _ _ _
      (graph.turns_suffice nodeId) (graph.originInvariant_start nodeId)

theorem searchOrigins_spec :
    (∀ visit, visit ∈ (graph.searchOrigins nodeId).seen ↔ graph.Visited nodeId visit) ∧
      graph.Records (graph.searchOrigins nodeId).seen (graph.searchOrigins nodeId).origins := by
  obtain ⟨final, -⟩ := @searchOrigins_induction graph nodeId (fun _ _ => True) trivial
    fun _ _ _ _ _ => trivial
  have explored : Explores graph.Precedes (nodeId, .exact) (graph.searchOrigins nodeId).seen [] :=
    ⟨final.reached, final.started, final.closed⟩
  exact ⟨fun _ => explored.mem_iff, final.records⟩

end

theorem visited_of_mem_fileOriginsFor {nodeId : U64} {origin : FileOriginView}
    (member : origin ∈ graph.fileOriginsFor nodeId) :
    ∃ visit, graph.Visited nodeId visit ∧
      graph.originAt visit = some { origin with incomplete := false } := by
  obtain ⟨reached, records⟩ := graph.searchOrigins_spec nodeId
  obtain ⟨view, sorted, rfl⟩ := mem_map.mp member
  rw [mem_insertionSort] at sorted
  obtain ⟨⟨file, _⟩, listed, rfl⟩ := mem_map.mp sorted
  obtain ⟨-, visit, made, at_⟩ := records.found file _ (mem_toPairs.mp listed)
  refine ⟨visit, (reached visit).mp made, ?_⟩
  obtain ⟨-, -, -, -, -, plain⟩ := originAt_eq_some at_
  rw [at_, some.injEq, ← plain]

end IoTransactionGraph

end EbpfStudio
