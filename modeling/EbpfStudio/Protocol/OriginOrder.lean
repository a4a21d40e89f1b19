/-
This file proves when the file origins of a node do not depend on the order in which the graph was
built.

The search goes level by level, and of the origins with the best confidence it keeps the one it
visits first, which has the shortest walk. If two of them are as near and have different paths, each
is visited first when the edges of its route are added first (`BestOrigin.exists_order`).
-/

import EbpfStudio.Library.Levels
import EbpfStudio.Protocol.Origins
import EbpfStudio.Protocol.Rebuilding

namespace EbpfStudio

open Relation Worklist List

/-! ### Origins in the order of their files -/

theorem EdgeConfidence.rank_injective : Function.Injective EdgeConfidence.rank := by
  intro first second same
  cases first <;> cases second <;> first | rfl | cases same

theorem FileIdentity.orderKey_injective : Function.Injective FileIdentity.orderKey := by
  rintro ⟨major, minor, inode, generation, mount⟩
    ⟨otherMajor, otherMinor, otherInode, otherGeneration, otherMount⟩ same
  have present : ∀ {width : Nat} (first second : Option (Word width)),
      first.elim 0 (·.val + 1) = second.elim 0 (·.val + 1) → first = second := by
    intro width first second equal
    cases first with
    | none =>
      cases second with
      | none => rfl
      | some value => exact absurd equal.symm (Nat.succ_ne_zero _)
    | some value =>
      cases second with
      | none => exact absurd equal (Nat.succ_ne_zero _)
      | some other => exact congrArg some (Fin.ext (Nat.succ.inj equal))
  simp only [orderKey, cons.injEq, and_true] at same
  obtain ⟨majors, minors, inodes, generations, mounts⟩ := same
  rw [Fin.ext majors, Fin.ext minors, Fin.ext inodes, present _ _ generations, present _ _ mounts]

section Sorting

variable {origins others : Table FileIdentity FileOriginView}

def sortedViews (origins : Table FileIdentity FileOriginView) : List FileOriginView :=
  (origins.toPairs.map (·.2)).insertionSort fun first second =>
    first.file.orderKey ≤ second.file.orderKey

def FiledByFile (origins : Table FileIdentity FileOriginView) : Prop :=
  ∀ file view, origins.lookup file = some view → view.file = file

theorem mem_sortedViews (filed : FiledByFile origins) {view : FileOriginView} :
    view ∈ sortedViews origins ↔ origins.lookup view.file = some view := by
  unfold sortedViews
  rw [mem_insertionSort, mem_map]
  constructor
  · rintro ⟨⟨file, _⟩, member, rfl⟩
    have found := Table.mem_toPairs.mp member
    rw [filed file _ found]
    exact found
  · intro found
    exact ⟨(view.file, view), Table.mem_toPairs.mpr found, rfl⟩

theorem nodup_files_sortedViews (filed : FiledByFile origins) :
    ((sortedViews origins).map (·.file)).Nodup := by
  have files : (origins.toPairs.map (·.2)).map (·.file) = origins.toPairs.map (·.1) := by
    rw [List.map_map]
    refine List.map_congr_left ?_
    rintro ⟨file, view⟩ member
    exact filed file view (Table.mem_toPairs.mp member)
  unfold sortedViews
  rw [((perm_insertionSort _ _).map _).nodup_iff, files]
  exact origins.keys_toPairs_nodup

theorem map_sortedViews_eq (filed : FiledByFile origins) (othersFiled : FiledByFile others)
    {View : Type} {shown : FileOriginView → View} (fileOf : View → FileIdentity)
    (shows : ∀ view, fileOf (shown view) = view.file)
    (same : ∀ file, (origins.lookup file).map shown = (others.lookup file).map shown) :
    (sortedViews origins).map shown = (sortedViews others).map shown := by
  have mem_map : ∀ {table : Table FileIdentity FileOriginView}, FiledByFile table →
      ∀ value, value ∈ (sortedViews table).map shown ↔
        (table.lookup (fileOf value)).map shown = some value := by
    intro table filed value
    rw [mem_map, Option.map_eq_some_iff]
    constructor
    · rintro ⟨view, member, rfl⟩
      rw [shows]
      exact ⟨view, (mem_sortedViews filed).mp member, rfl⟩
    · rintro ⟨view, found, rfl⟩
      rw [shows] at found
      exact ⟨view, (mem_sortedViews filed).mpr found, rfl⟩
  have nodup_map : ∀ {table : Table FileIdentity FileOriginView}, FiledByFile table →
      ((sortedViews table).map shown).Nodup := by
    intro table filed
    refine List.Nodup.of_map fileOf ?_
    rw [List.map_map, show fileOf ∘ shown = (·.file) from funext shows]
    exact nodup_files_sortedViews filed
  have ordered : ∀ table : Table FileIdentity FileOriginView,
      ((sortedViews table).map shown).Pairwise fun first second =>
        (fileOf first).orderKey ≤ (fileOf second).orderKey := by
    intro table
    rw [pairwise_map]
    simp only [shows]
    exact pairwise_insertionSort _ _
  refine List.Perm.eq_of_pairwise (fun first second member otherMember before after => ?_)
    (ordered origins) (ordered others) ?_
  · have files := FileIdentity.orderKey_injective (le_antisymm before after)
    have found := (mem_map filed first).mp member
    rw [same, files, (mem_map othersFiled second).mp otherMember] at found
    exact (Option.some.inj found).symm
  · refine (perm_ext_iff_of_nodup (nodup_map filed) (nodup_map othersFiled)).mpr ?_
    intro value
    rw [mem_map filed, mem_map othersFiled, same]

end Sorting

namespace IoTransactionGraph

theorem fileOriginsFor_eq (graph : IoTransactionGraph) (nodeId : U64) :
    graph.fileOriginsFor nodeId = (sortedViews (graph.searchOrigins nodeId).origins).map
      fun origin => { origin with incomplete := (graph.searchOrigins nodeId).incomplete } := rfl

theorem filedByFile_searchOrigins (graph : IoTransactionGraph) (nodeId : U64) :
    FiledByFile (graph.searchOrigins nodeId).origins :=
  fun file view found => ((graph.searchOrigins_spec nodeId).2.found file view found).1

/-! ### The origin that is kept -/

/-- An origin of a file that no visit beats, neither by more confidence nor, with as much
confidence, by a shorter walk. -/
structure BestOrigin (graph : IoTransactionGraph) (nodeId : U64) (view : FileOriginView)
    (steps : Nat) : Prop where
  found : ∃ visit, Walk graph.Precedes (nodeId, .exact) steps visit ∧
    graph.originAt visit = some view
  best : ∀ visit rival otherSteps, Walk graph.Precedes (nodeId, .exact) otherSteps visit →
    graph.originAt visit = some rival → rival.file = view.file →
    rival.confidence.rank < view.confidence.rank ∨
      rival.confidence.rank = view.confidence.rank ∧ steps ≤ otherSteps

def Nearest (graph : IoTransactionGraph) (nodeId : U64) (search : OriginSearch) (level : Nat) :
    Prop :=
  ∀ file view, search.origins.lookup file = some view → ∃ steps ≤ level,
    (∃ visit, Walk graph.Precedes (nodeId, .exact) steps visit ∧
      graph.originAt visit = some view) ∧
    ∀ other ∈ search.seen, ∀ rival, graph.originAt other = some rival → rival.file = file →
      rival.confidence.rank = view.confidence.rank →
      ∀ otherSteps, Walk graph.Precedes (nodeId, .exact) otherSteps other → steps ≤ otherSteps

section Search

variable {graph : IoTransactionGraph} {nodeId : U64} {search : OriginSearch}
  {visit : U64 × EdgeConfidence} {level reached : Nat}

theorem Nearest.mono (nearest : graph.Nearest nodeId search level) (order : level ≤ reached) :
    graph.Nearest nodeId search reached := by
  intro file view found
  obtain ⟨steps, atMost, rest⟩ := nearest file view found
  exact ⟨steps, atMost.trans order, rest⟩

theorem originVisit_of_mem (made : visit ∈ search.seen) :
    graph.originVisit search visit = (search, []) := if_pos made

theorem originVisit_of_not_mem (fresh : visit ∉ search.seen) :
    graph.originVisit search visit =
      ({ seen := visit :: search.seen
         incomplete := search.incomplete ||
           (graph.edgesInto visit.1).any (·.hasEvidence "direct_bio_request_incomplete")
         origins := (graph.originAt visit).elim search.origins (recordOrigin search.origins) },
        (graph.edgesInto visit.1).map fun edge =>
          (edge.fromNodeId, visit.2.weakest edge.confidence)) := if_neg fresh

variable {view : FileOriginView} {file : FileIdentity}

theorem lookup_after_visit (records : graph.Records search.seen search.origins)
    (found : ((graph.originAt visit).elim search.origins (recordOrigin search.origins)).lookup file
      = some view) :
    search.origins.lookup file = some view ∨
      graph.originAt visit = some view ∧ view.file = file ∧
        ∀ other ∈ search.seen, ∀ rival, graph.originAt other = some rival → rival.file = file →
          rival.confidence.rank < view.confidence.rank := by
  cases here : graph.originAt visit with
  | none =>
    rw [here] at found
    exact .inl found
  | some candidate =>
    rw [here, Option.elim_some] at found
    rcases lookup_recordOrigin_cases found with ⟨rfl, rfl⟩ | old
    · by_cases kept : search.origins.lookup view.file = some view
      · exact .inl kept
      · refine .inr ⟨rfl, rfl, fun other member rival at_ same => ?_⟩
        obtain ⟨best, entry, atMost⟩ := records.strongest other member rival at_
        rw [same] at entry
        rw [lookup_recordOrigin, if_pos rfl, entry, Option.elim_some, Option.some.injEq] at found
        split at found
        · rename_i stronger
          exact atMost.trans_lt stronger
        · exact absurd (found ▸ entry) kept
    · exact .inl old

theorem Nearest.record (nearest : graph.Nearest nodeId search level)
    (records : graph.Records search.seen search.origins) (fresh : visit ∉ search.seen)
    (walk : Walk graph.Precedes (nodeId, .exact) level visit)
    (shortest : ∀ {steps}, Walk graph.Precedes (nodeId, .exact) steps visit → level ≤ steps) :
    graph.Nearest nodeId (graph.originVisit search visit).1 level := by
  rw [originVisit_of_not_mem fresh]
  intro file view found
  rcases lookup_after_visit records found with old | ⟨here, same, stronger⟩
  · obtain ⟨steps, atMost, origin, first⟩ := nearest file view old
    refine ⟨steps, atMost, origin, fun other member rival at_ filed equal otherSteps other_ => ?_⟩
    rcases mem_cons.mp member with rfl | earlier
    · exact atMost.trans (shortest other_)
    · exact first other earlier rival at_ filed equal otherSteps other_
  · refine ⟨level, le_rfl, ⟨visit, walk, here⟩,
      fun other member rival at_ filed equal otherSteps other_ => ?_⟩
    rcases mem_cons.mp member with rfl | earlier
    · exact shortest other_
    · exact absurd equal (stronger other earlier rival at_ filed).ne

theorem visited_iff_walk :
    graph.Visited nodeId visit ↔ ∃ steps, Walk graph.Precedes (nodeId, .exact) steps visit :=
  reflTransGen_iff_walk

theorem bestOrigin_of_lookup (kept : (graph.searchOrigins nodeId).origins.lookup file = some view) :
    view.file = file ∧ ∃ steps, graph.BestOrigin nodeId view steps := by
  obtain ⟨made, records⟩ := graph.searchOrigins_spec nodeId
  obtain ⟨-, level, -, nearest⟩ := @searchOrigins_induction graph nodeId
    (fun search queue => ∃ level,
      AtLevel graph.Precedes (nodeId, .exact) search.seen queue level ∧
        graph.Nearest nodeId search level)
    ⟨0, ⟨_, [], rfl, layered_start⟩, fun file view found => by cases found⟩
    fun search visit queue holds ⟨level, at_, nearest⟩ => by
      obtain ⟨reached, order, now, next, rfl, layered⟩ := at_.front
      refine ⟨reached, ?_⟩
      by_cases made : visit ∈ search.seen
      · rw [originVisit_of_mem made, append_nil]
        exact ⟨⟨now, next, rfl, layered.skip made⟩, nearest.mono order⟩
      · refine ⟨?_, (nearest.mono order).record holds.records made
          (layered.near visit mem_cons_self) (layered.nearest made)⟩
        rw [originVisit_of_not_mem made, append_assoc]
        exact ⟨now, _, rfl, layered.mark (graph.mem_sources visit)⟩
  obtain ⟨same, -⟩ := records.found file view kept
  obtain ⟨steps, -, origin, first⟩ := nearest file view kept
  refine ⟨same, steps, origin, fun visit rival otherSteps walk at_ filed => ?_⟩
  have member := (made visit).mpr (visited_iff_walk.mpr ⟨otherSteps, walk⟩)
  obtain ⟨best, entry, atMost⟩ := records.strongest visit member rival at_
  rw [filed, same, kept] at entry
  cases entry
  rcases atMost.lt_or_eq with weaker | equal
  · exact .inl weaker
  · exact .inr ⟨equal, first visit member rival at_ (filed.trans same) equal otherSteps walk⟩

theorem lookup_isSome_iff :
    ((graph.searchOrigins nodeId).origins.lookup file).isSome = true ↔
      ∃ visit view, graph.Visited nodeId visit ∧ graph.originAt visit = some view ∧
        view.file = file := by
  obtain ⟨made, records⟩ := graph.searchOrigins_spec nodeId
  rw [Option.isSome_iff_exists]
  constructor
  · rintro ⟨view, kept⟩
    obtain ⟨same, visit, member, at_⟩ := records.found file view kept
    exact ⟨visit, view, (made visit).mp member, at_, same⟩
  · rintro ⟨visit, view, visited, at_, rfl⟩
    obtain ⟨best, kept, -⟩ := records.strongest visit ((made visit).mpr visited) view at_
    exact ⟨best, kept⟩

theorem incomplete_searchOrigins :
    (graph.searchOrigins nodeId).incomplete = true ↔ ∃ visit, graph.Visited nodeId visit ∧
      (graph.edgesInto visit.1).any (·.hasEvidence "direct_bio_request_incomplete") = true := by
  obtain ⟨made, -⟩ := graph.searchOrigins_spec nodeId
  obtain ⟨-, flag⟩ := @searchOrigins_induction graph nodeId
    (fun search _ => search.incomplete = search.seen.any fun visit =>
      (graph.edgesInto visit.1).any (·.hasEvidence "direct_bio_request_incomplete"))
    rfl
    (by
      intro search visit queue _ flag
      by_cases old : visit ∈ search.seen
      · rw [originVisit_of_mem old]
        exact flag
      · rw [originVisit_of_not_mem old, any_cons, ← flag, Bool.or_comm])
  rw [flag, any_eq_true]
  exact exists_congr fun visit => and_congr_left fun _ => made visit

end Search

/-! ### What does not depend on the order -/

namespace SameContents

variable {graph other : IoTransactionGraph} (same : graph.SameContents other)
  (wellFormed : other.WellFormed)

include same

theorem precedes_eq : graph.Precedes = other.Precedes := by
  funext visit next
  exact propext (exists_congr fun edge => and_congr_left fun _ => same.edges.mem_iff)

variable {nodeId : U64}

theorem visited_iff {visit : U64 × EdgeConfidence} :
    graph.Visited nodeId visit ↔ other.Visited nodeId visit := by
  unfold Visited
  rw [same.precedes_eq]

theorem pathInferred_eq (nodeId : U64) : graph.pathInferred nodeId = other.pathInferred nodeId :=
  same.edges.any_eq

theorem incomplete_eq (nodeId : U64) :
    (graph.searchOrigins nodeId).incomplete = (other.searchOrigins nodeId).incomplete := by
  rw [Bool.eq_iff_iff, incomplete_searchOrigins, incomplete_searchOrigins]
  refine exists_congr fun visit => and_congr same.visited_iff ?_
  rw [show (graph.edgesInto visit.1).any _ = _ from (same.edges.filter _).any_eq]
  rfl

include wellFormed

theorem originAt_eq (visit : U64 × EdgeConfidence) :
    graph.originAt visit = other.originAt visit := by
  unfold originAt
  rw [same.findNode_eq wellFormed]
  simp only [same.pathInferred_eq]

theorem bestOrigin_iff {view : FileOriginView} {steps : Nat} :
    graph.BestOrigin nodeId view steps ↔ other.BestOrigin nodeId view steps := by
  have origins := funext (same.originAt_eq wellFormed)
  constructor
  · rintro ⟨found, best⟩
    rw [origins, same.precedes_eq] at found best
    exact ⟨found, best⟩
  · rintro ⟨found, best⟩
    rw [← origins, ← same.precedes_eq] at found best
    exact ⟨found, best⟩

theorem lookup_isSome_eq (nodeId : U64) (file : FileIdentity) :
    ((graph.searchOrigins nodeId).origins.lookup file).isSome =
      ((other.searchOrigins nodeId).origins.lookup file).isSome := by
  rw [Bool.eq_iff_iff, lookup_isSome_iff, lookup_isSome_iff]
  refine exists_congr fun visit => exists_congr fun view => ?_
  rw [same.visited_iff, same.originAt_eq wellFormed]

end SameContents

section Best

variable {graph : IoTransactionGraph} {nodeId : U64} {first second : FileOriginView}
  {steps otherSteps : Nat}

theorem BestOrigin.confidence_eq (best : graph.BestOrigin nodeId first steps)
    (other : graph.BestOrigin nodeId second otherSteps) (same : first.file = second.file) :
    first.confidence = second.confidence := by
  obtain ⟨visit, walk, at_⟩ := best.found
  obtain ⟨otherVisit, otherWalk, otherAt⟩ := other.found
  have weaker := other.best visit first steps walk at_ same
  have stronger := best.best otherVisit second otherSteps otherWalk otherAt same.symm
  exact EdgeConfidence.rank_injective (by omega)

end Best

def OnePath (graph : IoTransactionGraph) (nodeId : U64) : Prop :=
  ∀ first second steps otherSteps, graph.BestOrigin nodeId first steps →
    graph.BestOrigin nodeId second otherSteps → first.file = second.file →
    first.path = second.path

section Independent

variable {graph other : IoTransactionGraph} (same : graph.SameContents other)
  (wellFormed : other.WellFormed)

include same wellFormed

variable {nodeId : U64} {View : Type}

theorem map_lookup_eq {shown : FileOriginView → View}
    (agree : ∀ first second steps otherSteps, other.BestOrigin nodeId first steps →
      other.BestOrigin nodeId second otherSteps → first.file = second.file →
      shown first = shown second) (file : FileIdentity) :
    ((graph.searchOrigins nodeId).origins.lookup file).map shown =
      ((other.searchOrigins nodeId).origins.lookup file).map shown := by
  have both := same.lookup_isSome_eq wellFormed nodeId file
  cases kept : (graph.searchOrigins nodeId).origins.lookup file with
  | none =>
    rw [kept] at both
    have absent := Option.isNone_iff_eq_none.mp (Option.isSome_eq_false_iff.mp both.symm)
    rw [absent]
  | some view =>
    rw [kept] at both
    obtain ⟨rival, otherKept⟩ := Option.isSome_iff_exists.mp both.symm
    obtain ⟨filed, steps, best⟩ := bestOrigin_of_lookup kept
    obtain ⟨otherFiled, otherSteps, otherBest⟩ := bestOrigin_of_lookup otherKept
    rw [otherKept, Option.map_some, Option.map_some,
      agree view rival steps otherSteps ((same.bestOrigin_iff wellFormed).mp best) otherBest
        (filed.trans otherFiled.symm)]

theorem map_fileOriginsFor_eq (shown : FileOriginView → View) (fileOf : View → FileIdentity)
    (shows : ∀ view, fileOf (shown view) = view.file)
    (agree : ∀ first second steps otherSteps, other.BestOrigin nodeId first steps →
      other.BestOrigin nodeId second otherSteps → first.file = second.file →
      ∀ incomplete, shown { first with incomplete := incomplete } =
        shown { second with incomplete := incomplete }) :
    (graph.fileOriginsFor nodeId).map shown = (other.fileOriginsFor nodeId).map shown := by
  rw [fileOriginsFor_eq, fileOriginsFor_eq, List.map_map, List.map_map, same.incomplete_eq]
  refine map_sortedViews_eq (graph.filedByFile_searchOrigins nodeId)
    (other.filedByFile_searchOrigins nodeId) fileOf (fun view => shows _) ?_
  refine map_lookup_eq same wellFormed fun first second steps otherSteps best rival filed => ?_
  exact agree first second steps otherSteps best rival filed _

end Independent

/-! ### An order in which an origin comes first -/

def follow (visit : U64 × EdgeConfidence) (edge : IoEdge) : U64 × EdgeConfidence :=
  (edge.fromNodeId, visit.2.weakest edge.confidence)

def arrive (nodeId : U64) (route : List IoEdge) : U64 × EdgeConfidence :=
  route.foldl follow (nodeId, .exact)

/-- Edges of a graph each of which is followed from where the ones before it lead. -/
def Route (graph : IoTransactionGraph) (nodeId : U64) (route : List IoEdge) : Prop :=
  ∀ before edge after, route = before ++ edge :: after →
    edge ∈ graph.edges ∧ edge.toNodeId = (arrive nodeId before).1

section Route

variable {graph : IoTransactionGraph} {nodeId : U64} {route before after : List IoEdge}
  {edge : IoEdge}

theorem arrive_snoc (nodeId : U64) (route : List IoEdge) (edge : IoEdge) :
    arrive nodeId (route ++ [edge]) = follow (arrive nodeId route) edge := by
  unfold arrive
  rw [foldl_append, foldl_cons, foldl_nil]

theorem Route.of_append (follows : graph.Route nodeId (before ++ after)) :
    graph.Route nodeId before := by
  intro first edge rest parts
  refine follows first edge (rest ++ after) ?_
  rw [parts, append_assoc, cons_append]

theorem Route.precedes (follows : graph.Route nodeId (before ++ edge :: after)) :
    graph.Precedes (arrive nodeId before) (arrive nodeId (before ++ [edge])) := by
  obtain ⟨member, into⟩ := follows before edge after rfl
  exact ⟨edge, member, into, arrive_snoc nodeId before edge⟩

theorem exists_route {steps : Nat} {visit : U64 × EdgeConfidence}
    (walk : Walk graph.Precedes (nodeId, .exact) steps visit) :
    ∃ route, graph.Route nodeId route ∧ route.length = steps ∧ arrive nodeId route = visit := by
  induction walk with
  | refl =>
    refine ⟨[], fun before edge after parts => ?_, rfl, rfl⟩
    cases before <;> cases parts
  | tail _ linked hypothesis =>
    obtain ⟨route, follows, rfl, rfl⟩ := hypothesis
    obtain ⟨edge, member, into, rfl⟩ := linked
    refine ⟨route ++ [edge], fun before other after parts => ?_, length_append,
      arrive_snoc nodeId route edge⟩
    rcases eq_nil_or_concat after with rfl | ⟨rest, last, rfl⟩
    · obtain ⟨rfl, same⟩ := append_inj' parts rfl
      cases same
      exact ⟨member, into⟩
    · rw [concat_eq_append, ← cons_append, ← append_assoc] at parts
      obtain ⟨rfl, -⟩ := append_inj' parts rfl
      exact follows before other rest rfl

theorem Route.walk_on {fewer : Nat} (follows : graph.Route nodeId (before ++ after))
    (walk : Walk graph.Precedes (nodeId, .exact) fewer (arrive nodeId before)) :
    Walk graph.Precedes (nodeId, .exact) (fewer + after.length)
      (arrive nodeId (before ++ after)) := by
  induction after using reverseRecOn with
  | nil =>
    rw [append_nil]
    exact walk
  | append_singleton after edge hypothesis =>
    rw [← append_assoc] at follows ⊢
    rw [length_append]
    exact (hypothesis follows.of_append).tail follows.precedes

section

variable (follows : graph.Route nodeId route)
include follows

theorem Route.walk :
    Walk graph.Precedes (nodeId, .exact) route.length (arrive nodeId route) := by
  have along := @walk_on graph nodeId [] route 0 follows .refl
  rw [zero_add] at along
  exact along

theorem Route.transGen (member : edge ∈ route) :
    TransGen graph.Links (arrive nodeId route).1 edge.toNodeId := by
  induction route using reverseRecOn with
  | nil => cases member
  | append_singleton route last hypothesis =>
    obtain ⟨listed, into⟩ := follows route last [] rfl
    rw [arrive_snoc]
    have linked : graph.Links (follow (arrive nodeId route) last).1 (arrive nodeId route).1 :=
      ⟨last, listed, rfl, into⟩
    rcases mem_append.mp member with earlier | here
    · exact (hypothesis follows.of_append earlier).head linked
    · rw [mem_singleton.mp here, into]
      exact .single linked

theorem Route.nodup (acyclic : Arcs.Acyclic graph.Links) :
    route.Nodup := by
  induction route using reverseRecOn with
  | nil => exact nodup_nil
  | append_singleton route last hypothesis =>
    rw [nodup_append]
    refine ⟨hypothesis follows.of_append, nodup_singleton _, ?_⟩
    rintro edge member other listed rfl
    rw [mem_singleton] at listed
    obtain ⟨-, into⟩ := follows route last [] rfl
    have cycle := follows.of_append.transGen member
    rw [listed, into] at cycle
    exact acyclic _ cycle

end

end Route

section Leading

variable {graph : IoTransactionGraph} {nodeId : U64} {route : List IoEdge} {view : FileOriginView}

def Leading (graph : IoTransactionGraph) (nodeId : U64) (route : List IoEdge)
    (view : FileOriginView) (search : OriginSearch) (queue : List (U64 × EdgeConfidence)) : Prop :=
  (∃ before after, route = before ++ after ∧
    Leads graph.Precedes (nodeId, .exact) search.seen queue (arrive nodeId before)
      before.length) ∨
  search.origins.lookup view.file = some view

theorem BestOrigin.shortest {before after : List IoEdge}
    (best : graph.BestOrigin nodeId view (before ++ after).length)
    (follows : graph.Route nodeId (before ++ after))
    (ends : graph.originAt (arrive nodeId (before ++ after)) = some view) {fewer : Nat}
    (walk : Walk graph.Precedes (nodeId, .exact) fewer (arrive nodeId before)) :
    before.length ≤ fewer := by
  have longer := best.best _ view _ (follows.walk_on walk) ends rfl
  rw [length_append] at longer
  omega

theorem sources_eq (follows : graph.Route nodeId route) (acyclic : Arcs.Acyclic graph.Links)
    {rest before after : List IoEdge} {edge : IoEdge} (first : graph.edges = route ++ rest)
    (parts : route = before ++ edge :: after) :
    ∃ others, (graph.edgesInto (arrive nodeId before).1).map
        (fun edge => (edge.fromNodeId, (arrive nodeId before).2.weakest edge.confidence)) =
      arrive nodeId (before ++ [edge]) :: others := by
  obtain ⟨-, into⟩ := follows before edge after parts
  have away : before.filter (fun other => other.toNodeId = (arrive nodeId before).1) = [] := by
    rw [filter_eq_nil_iff]
    intro other member back
    have cycle := (parts ▸ follows).of_append.transGen member
    rw [of_decide_eq_true back] at cycle
    exact acyclic _ cycle
  unfold edgesInto
  rw [first, parts, append_assoc, filter_append, away, nil_append,
    cons_append, filter_cons, if_pos (decide_eq_true into), map_cons, arrive_snoc]
  exact ⟨_, rfl⟩

variable {search : OriginSearch}

variable {steps : Nat}

theorem lookup_of_best {visit : U64 × EdgeConfidence} (best : graph.BestOrigin nodeId view steps)
    (visited : graph.Visited nodeId visit) (kept : search.origins.lookup view.file = some view) :
    ((graph.originAt visit).elim search.origins (recordOrigin search.origins)).lookup view.file =
      some view := by
  cases here : graph.originAt visit with
  | none => exact kept
  | some candidate =>
    rw [Option.elim_some, lookup_recordOrigin]
    by_cases same : view.file = candidate.file
    · obtain ⟨otherSteps, walk⟩ := visited_iff_walk.mp visited
      have atMost := best.best visit candidate otherSteps walk here same.symm
      rw [if_pos same, ← same, kept, Option.elim_some, if_neg (by omega)]
    · rw [if_neg same]
      exact kept

section Turn

variable {rest : List IoEdge} {search : OriginSearch} {visit : U64 × EdgeConfidence}
  {queue : List (U64 × EdgeConfidence)} (acyclic : Arcs.Acyclic graph.Links)
  (first : graph.edges = route ++ rest) (follows : graph.Route nodeId route)
  (best : graph.BestOrigin nodeId view route.length)
  (ends : graph.originAt (arrive nodeId route) = some view)
  (holds : graph.OriginInvariant nodeId search (visit :: queue))

include follows best ends

theorem leading_skip (made : visit ∈ search.seen)
    (leading : graph.Leading nodeId route view search (visit :: queue)) :
    graph.Leading nodeId route view search queue := by
  rcases leading with ⟨before, after, rfl, leads⟩ | kept
  · exact .inl ⟨before, after, rfl, leads.skip (best.shortest follows ends) made⟩
  · exact .inr kept

include acyclic first holds

theorem leading_visit (leading : graph.Leading nodeId route view search (visit :: queue)) :
    graph.Leading nodeId route view (graph.originVisit search visit).1
      (queue ++ (graph.originVisit search visit).2) := by
  by_cases made : visit ∈ search.seen
  · rw [originVisit_of_mem made, append_nil]
    exact leading_skip follows best ends made leading
  rw [originVisit_of_not_mem made]
  rcases leading with ⟨before, after, rfl, leads⟩ | kept
  · by_cases here : visit = arrive nodeId before
    · subst here
      cases after with
      | nil =>
        rw [append_nil] at ends best
        refine .inr ?_
        rw [ends, Option.elim_some, lookup_recordOrigin, if_pos rfl]
        cases entry : search.origins.lookup view.file with
        | none => rfl
        | some existing =>
          obtain ⟨filed, other, member, at_⟩ := holds.records.found view.file existing entry
          obtain ⟨ahead, behind, -, nearer, -⟩ := leads
          obtain ⟨fewer, below, walk⟩ := nearer other (.inl member)
          have rivals := best.best other existing fewer walk at_ filed
          refine congrArg some (if_pos (rivals.resolve_right fun equal => ?_))
          exact absurd equal.2 (not_le.mpr below)
      | cons edge after =>
        -- the first edge into this node is the next one of the route
        obtain ⟨others, sources⟩ := sources_eq follows acyclic first rfl
        refine .inl ⟨before ++ [edge], after, append_cons _ _ _, ?_⟩
        have listed := graph.mem_sources (arrive nodeId before)
        rw [sources] at listed ⊢
        rw [length_append]
        exact leads.pass (best.shortest follows ends)
          follows.of_append.walk fun other member => (listed other).mp member
    · exact .inl ⟨before, after, rfl,
        leads.mark here fun next member => (graph.mem_sources visit next).mp member⟩
  · exact .inr (lookup_of_best best (holds.reached visit (.inr mem_cons_self)) kept)

end Turn

theorem BestOrigin.exists_order (wellFormed : graph.WellFormed)
    (best : graph.BestOrigin nodeId view steps) :
    ∃ calls, (build graph.transactionId calls).SameContents graph ∧
      ((build graph.transactionId calls).searchOrigins nodeId).origins.lookup view.file =
        some view := by
  obtain ⟨visit, walk, at_⟩ := best.found
  obtain ⟨route, follows, rfl, rfl⟩ := exists_route walk
  have among : route ⊆ graph.edges := by
    intro edge member
    obtain ⟨before, after, parts⟩ := append_of_mem member
    exact (follows before edge after parts).1
  obtain ⟨moved, reordered, listed⟩ := (follows.nodup wellFormed.acyclic).subperm among
  obtain ⟨rest, parts⟩ := listed.exists_perm_append
  let other : IoTransactionGraph := ⟨graph.transactionId, graph.nodes, route ++ rest⟩
  have same : other.SameContents graph :=
    ⟨Perm.refl _, ((parts.trans (reordered.append_right rest))).symm⟩
  have otherWellFormed := same.wellFormed wellFormed
  have otherFollows : other.Route nodeId route := by
    intro before edge after parts
    obtain ⟨member, into⟩ := follows before edge after parts
    exact ⟨same.edges.mem_iff.mpr member, into⟩
  refine ⟨graph.nodes.map .addNode ++ (route ++ rest).map .addEdge, ?_⟩
  rw [build_edges otherWellFormed]
  refine ⟨same, ?_⟩
  obtain ⟨-, leading⟩ := @searchOrigins_induction _ nodeId (Leading _ nodeId route view)
    (.inl ⟨[], route, rfl, leads_start⟩) fun search visit queue holds leading =>
      leading_visit otherWellFormed.acyclic rfl otherFollows
        ((same.bestOrigin_iff wellFormed).mpr best) ((same.originAt_eq wellFormed _).trans at_)
        holds leading
  rcases leading with ⟨before, after, -, ahead, behind, empty, -⟩ | kept
  · simp at empty
  · exact kept

end Leading

/-! ### The order of the calls -/

variable {nodeId : U64}

theorem mem_fileOriginsFor {graph : IoTransactionGraph} {origin : FileOriginView} :
    origin ∈ graph.fileOriginsFor nodeId ↔
      ∃ view, (graph.searchOrigins nodeId).origins.lookup view.file = some view ∧
        { view with incomplete := (graph.searchOrigins nodeId).incomplete } = origin := by
  rw [fileOriginsFor_eq, mem_map]
  exact exists_congr fun view =>
    and_congr_left fun _ => mem_sortedViews (graph.filedByFile_searchOrigins nodeId)

/-- The file origins are the same in every accepted order of the nodes and edges of a graph if
and only if all best origins of a file have one path, for every node. All but the path of an
origin is always the same. -/
theorem fileOriginsFor_ignores_order_iff (transactionId : U64) (calls : List Call) :
    ((∀ otherId others, (build otherId others).SameContents (build transactionId calls) →
        ∀ nodeId, (build otherId others).fileOriginsFor nodeId =
          (build transactionId calls).fileOriginsFor nodeId) ↔
      ∀ nodeId, (build transactionId calls).OnePath nodeId) ∧
    ∀ otherId others, (build otherId others).SameContents (build transactionId calls) →
      ∀ nodeId, ((build otherId others).fileOriginsFor nodeId).map
          (fun origin => (origin.file, origin.confidence, origin.incomplete)) =
        ((build transactionId calls).fileOriginsFor nodeId).map
          fun origin => (origin.file, origin.confidence, origin.incomplete) := by
  have wellFormed := wellFormed_build transactionId calls
  refine ⟨⟨fun ignores nodeId first second steps otherSteps best rival filed => ?_,
    fun onePath otherId others same nodeId => ?_⟩, fun otherId others same nodeId => ?_⟩
  · obtain ⟨firstCalls, firstSame, kept⟩ := best.exists_order wellFormed
    obtain ⟨secondCalls, secondSame, otherKept⟩ := rival.exists_order wellFormed
    have reported := mem_fileOriginsFor.mpr ⟨first, kept, rfl⟩
    rw [ignores _ firstCalls firstSame, ← ignores _ secondCalls secondSame] at reported
    obtain ⟨view, found, same⟩ := mem_fileOriginsFor.mp reported
    rw [FileOriginView.mk.injEq] at same
    rw [same.1, filed, otherKept] at found
    cases found
    exact same.2.1.symm
  · rw [← map_id ((build otherId others).fileOriginsFor nodeId),
      ← map_id ((build transactionId calls).fileOriginsFor nodeId)]
    refine map_fileOriginsFor_eq same wellFormed id (·.file) (fun _ => rfl)
      fun first second steps otherSteps best rival filed incomplete => ?_
    rw [filed, best.confidence_eq rival filed,
      onePath nodeId first second steps otherSteps best rival filed]
  · refine map_fileOriginsFor_eq same wellFormed _ Prod.fst (fun _ => rfl)
      fun first second steps otherSteps best rival filed incomplete => ?_
    rw [filed, best.confidence_eq rival filed]

def linkNode (nodeId : U64) (path : String) : IoNode where
  nodeId := nodeId
  transactionId := none
  kind := .syscall
  startTsNs := 10
  endTsNs := some 20
  origin := .file
  file := some ⟨8, 1, 42, none, none⟩
  path := some ⟨some path, .bpfDPath, 10, false⟩
  operation := some .read
  bytes := some 4096
  pid := 7
  tid := 7
  name := "read"

/-- Two reads of a file by different names lead to one request; the edges come in some order. -/
def linkCalls (edges : List IoEdge) : List Call :=
  [.addNode (linkNode 1 "/data/a"), .addNode (linkNode 2 "/data/b"),
    .addNode { linkNode 3 "" with file := none, path := none }] ++ edges.map .addEdge

/-- The path that is reported is the one whose edge was added first. -/
theorem reported_path_depends_on_order :
    (build 1 (linkCalls [.exact 2 2 3 .submits, .exact 1 1 3 .submits])).SameContents
        (build 1 (linkCalls [.exact 1 1 3 .submits, .exact 2 2 3 .submits])) ∧
      ((build 1 (linkCalls [.exact 1 1 3 .submits, .exact 2 2 3 .submits])).fileOriginsFor 3).map
          (fun origin => (origin.path.bind (·.path), origin.confidence)) =
        [(some "/data/a", .exact)] ∧
      ((build 1 (linkCalls [.exact 2 2 3 .submits, .exact 1 1 3 .submits])).fileOriginsFor 3).map
          (fun origin => (origin.path.bind (·.path), origin.confidence)) =
        [(some "/data/b", .exact)] := by
  refine ⟨⟨?_, ?_⟩, ?_, ?_⟩ <;> decide +kernel

end IoTransactionGraph

end EbpfStudio
