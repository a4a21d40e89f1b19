/-
This file models how the kernel tells which files a request belongs to.

The origin that is active for a task is bound to a bio when it is submitted, and reported when the
bio becomes part of a request. What is not reported gives a sign (`Signals`), which `Signalled`
follows to the end of the lifetime of the request. Where the number of origins cannot be stored
there is none.
-/

import EbpfStudio.Kernel.Isolation

namespace EbpfStudio

open Run List Option Table

def maxRequestOrigins : U8 := 8

def originIncomplete : Nat := 1 <<< 8

/-- The file that a bio belongs to. -/
structure KernelFileOrigin where
  tsNs : U64
  requestedBytes : U64
  inode : U64
  mountId : U64
  fsDevice : U32
  inodeGeneration : U32
  pid : U32
  tid : U32
  originFlags : U32
  operation : U8
  deriving DecidableEq

/-- The record of an origin. -/
structure OriginEvent where
  tsNs : U64
  requestId : U64
  originId : U64
  inode : U64
  mountId : U64
  fsDevice : U32
  bytes : U32
  inodeGeneration : U32
  originFlags : U32
  pid : U32
  tid : U32
  operation : U8
  comm : List U8
  deriving DecidableEq

def OriginEvent.isIncomplete (event : OriginEvent) : Bool :=
  event.originFlags.val &&& originIncomplete ≠ 0

def KernelFileOrigin.markIncomplete (origin : KernelFileOrigin) : KernelFileOrigin :=
  { origin with originFlags := Word.ofNat 32 (origin.originFlags.val ||| originIncomplete) }

/-- A bio becomes part of a request, on some processor. What the machine decides is part of the
link: whether the number of origins can be stored and whether the ring buffer takes a record. -/
structure BioLink (cpus : Nat) where
  request : U64
  bio : U64
  newRequest : Bool
  tsNs : U64
  cpu : Fin cpus
  comm : List U8
  storesCount : Bool
  reserves : Bool

def originEvent {cpus : Nat} (link : BioLink cpus) (origin : KernelFileOrigin) : OriginEvent where
  tsNs := link.tsNs
  requestId := link.request
  originId := link.bio
  inode := origin.inode
  mountId := origin.mountId
  fsDevice := origin.fsDevice
  bytes := Word.ofNat 32 (min origin.requestedBytes.val (2 ^ 32 - 1))
  inodeGeneration := origin.inodeGeneration
  originFlags := origin.originFlags
  pid := origin.pid
  tid := origin.tid
  operation := origin.operation
  comm := link.comm

structure OriginCapture (cpus : Nat) where
  exactAttribution : Bool
  capture : Capture cpus := {}
  bioOrigins : Table U64 KernelFileOrigin := ∅
  originCounts : Table U64 U8 := ∅

structure LinkEffect where
  bioOrigins : Table U64 KernelFileOrigin
  originCounts : Table U64 U8
  updates : List AggregateUpdate := []
  events : List OriginEvent := []

/-- A step of the capture, the submission of a bio with the origin that is active for its task and
whether it can be stored, or a link. -/
inductive OriginStep (cpus : Nat) where
  | capture (step : CaptureStep cpus)
  | bind (bio : U64) (active : Option KernelFileOrigin) (stores : Bool)
  | link (link : BioLink cpus)

namespace OriginCapture

variable {cpus : Nat}

/-- The origin of a bio. Its pointer may have been used before, so an old origin is removed. -/
def bindActiveFileToBio (state : OriginCapture cpus) (bio : U64)
    (active : Option KernelFileOrigin) (stores : Bool) : Table U64 KernelFileOrigin :=
  if !state.exactAttribution || bio = 0 then state.bioOrigins
  else
    let bioOrigins : Table U64 KernelFileOrigin := state.bioOrigins.erase bio
    match active with
    | none => bioOrigins
    | some origin => if stores then bioOrigins.insert bio origin else bioOrigins

/-- The numbers of origins that a link finds. A request that is made from the bio has none yet. -/
def countsAtLink (state : OriginCapture cpus) (link : BioLink cpus) : Table U64 U8 :=
  if link.newRequest then state.originCounts.erase link.request else state.originCounts

/-- A bio becomes part of a request. -/
def linkBioPtrs (state : OriginCapture cpus) (link : BioLink cpus) : LinkEffect :=
  if !state.exactAttribution || (link.request = 0 || link.bio = 0) then
    { bioOrigins := state.bioOrigins, originCounts := state.originCounts }
  else
    let originCounts := state.countsAtLink link
    match state.bioOrigins.lookup link.bio with
    | none => { bioOrigins := state.bioOrigins, originCounts := originCounts }
    | some origin =>
      let count := (originCounts.lookup link.request).getD 0
      if maxRequestOrigins < count then
        { bioOrigins := state.bioOrigins.erase link.bio, originCounts := originCounts }
      else
        let retained := if count = maxRequestOrigins then origin.markIncomplete else origin
        if !link.storesCount then
          { bioOrigins := state.bioOrigins, originCounts := originCounts }
        else
          let originCounts : Table U64 U8 :=
            originCounts.insert link.request (count.saturatingAdd 1)
          if link.reserves then
            { bioOrigins := state.bioOrigins.erase link.bio
              originCounts := originCounts
              events := [originEvent link retained] }
          else
            { bioOrigins := state.bioOrigins
              originCounts := originCounts
              updates := [.reserveFailure] }

/-- The numbers of origins after a step of the capture: a completion removes that of its
request. -/
def countsAfter (state : OriginCapture cpus) : CaptureStep cpus → Table U64 U8
  | .probe probe =>
    if probe.decoded.kind = .complete then state.originCounts.erase probe.decoded.requestId
    else state.originCounts
  | _ => state.originCounts

def afterLink (state : OriginCapture cpus) (link : BioLink cpus) : OriginCapture cpus :=
  let effect := state.linkBioPtrs link
  let kernel := state.capture.kernel
  { state with
    bioOrigins := effect.bioOrigins
    originCounts := effect.originCounts
    capture := { state.capture with
      kernel := { kernel with
        aggregates := Function.update kernel.aggregates link.cpu
          (effect.updates.foldl (aggregateUpdate kernel.config.generation)
            (kernel.aggregates link.cpu)) } } }

def step (collectorPid : U32) (sessionId : String) (state : OriginCapture cpus) :
    OriginStep cpus → OriginCapture cpus
  | .capture step =>
    { state with
      capture := state.capture.step collectorPid sessionId step
      originCounts := state.countsAfter step }
  | .bind bio active stores =>
    { state with bioOrigins := state.bindActiveFileToBio bio active stores }
  | .link link => state.afterLink link

end OriginCapture

/-- The step ends what is known of the lifetime of a request: it completes, or it is made anew. -/
def OriginStep.endsLifetime {cpus : Nat} (request : U64) : OriginStep cpus → Bool
  | .capture (.probe probe) =>
    probe.decoded.kind = .complete && probe.decoded.requestId = request
  | .link joined =>
    joined.newRequest && (joined.request ≠ 0 && joined.bio ≠ 0) && joined.request = request
  | _ => false

namespace OriginCapture

variable {cpus : Nat}

/-- The link counts a report that did not fit, in the aggregate of the current generation. -/
def CountsLoss (state : OriginCapture cpus) (link : BioLink cpus) : Prop :=
  .reserveFailure ∈ (state.linkBioPtrs link).updates ∧
    ((state.afterLink link).capture.kernel.aggregates link.cpu).counters.ringReserveFailures =
      (aggregateMut state.capture.kernel.config.generation
        (state.capture.kernel.aggregates link.cpu)).counters.ringReserveFailures.saturatingAdd 1

/-- A link gives a sign of a loss. -/
def Signals (state : OriginCapture cpus) (link : BioLink cpus) : Prop :=
  (∃ event ∈ (state.linkBioPtrs link).events,
    event.requestId = link.request ∧ event.isIncomplete = true) ∨ state.CountsLoss link

variable {state : OriginCapture cpus} {link : BioLink cpus}

theorem countsLoss_of_updates (lost : (state.linkBioPtrs link).updates = [.reserveFailure]) :
    state.CountsLoss link := by
  refine ⟨lost ▸ mem_singleton_self _, ?_⟩
  unfold afterLink
  simp only [lost, Function.update_self]
  rfl

end OriginCapture

theorem isIncomplete_originEvent {cpus : Nat} (link : BioLink cpus) (origin : KernelFileOrigin) :
    (originEvent link origin.markIncomplete).isIncomplete = true := by
  have bounded : origin.originFlags.val ||| originIncomplete < 2 ^ 32 :=
    Nat.or_lt_two_pow origin.originFlags.isLt (by decide)
  have flags : (originEvent link origin.markIncomplete).originFlags.val =
      origin.originFlags.val ||| originIncomplete := Nat.mod_eq_of_lt bounded
  unfold OriginEvent.isIncomplete
  rw [flags, decide_eq_true_eq, Nat.and_comm, Nat.and_or_distrib_left, Nat.and_self]
  intro unmarked
  exact absurd (Nat.or_eq_zero_iff.mp unmarked).2 (by decide)

namespace OriginCapture

variable {cpus : Nat} {state : OriginCapture cpus} {link : BioLink cpus} {origin : KernelFileOrigin}

theorem signals_of_marked
    (reported : (state.linkBioPtrs link).events = [originEvent link origin.markIncomplete]) :
    ∃ event ∈ (state.linkBioPtrs link).events,
      event.requestId = link.request ∧ event.isIncomplete = true := by
  rw [reported]
  exact ⟨_, mem_singleton_self _, rfl, isIncomplete_originEvent link origin⟩

theorem linkBioPtrs_cases (enabled : state.exactAttribution = true)
    (request : link.request ≠ 0) (bio : link.bio ≠ 0) :
    let count := ((state.countsAtLink link).lookup link.request).getD 0
    ((state.linkBioPtrs link).originCounts = state.countsAtLink link ∧
      (state.bioOrigins.lookup link.bio = none ∨ maxRequestOrigins < count ∨
        link.storesCount = false)) ∨
    ∃ origin, state.bioOrigins.lookup link.bio = some origin ∧ count ≤ maxRequestOrigins ∧
      (state.linkBioPtrs link).originCounts =
        (state.countsAtLink link).insert link.request (count.saturatingAdd 1) ∧
      ((state.linkBioPtrs link).events =
          [originEvent link (if count = maxRequestOrigins then origin.markIncomplete
            else origin)] ∨
        (state.linkBioPtrs link).updates = [.reserveFailure]) := by
  intro count
  have proceeds : ¬(!state.exactAttribution || (link.request = 0 || link.bio = 0)) = true := by
    simp [enabled, request, bio]
  unfold linkBioPtrs
  rw [if_neg proceeds]
  cases recorded : state.bioOrigins.lookup link.bio with
  | none => exact .inl ⟨rfl, .inl rfl⟩
  | some origin =>
    dsimp only
    by_cases above : maxRequestOrigins < count
    · rw [if_pos above]
      exact .inl ⟨rfl, .inr (.inl above)⟩
    · rw [if_neg above]
      cases stored : link.storesCount with
      | false => exact .inl ⟨rfl, .inr (.inr rfl)⟩
      | true =>
        refine .inr ⟨origin, rfl, not_lt.mp above, ?_⟩
        cases link.reserves with
        | true => exact ⟨rfl, .inl rfl⟩
        | false => exact ⟨rfl, .inr rfl⟩

variable {request : U64}

theorem lookup_of_countsAtLink {count : U8}
    (found : (state.countsAtLink link).lookup request = some count) :
    state.originCounts.lookup request = some count ∧
      (OriginStep.link link).endsLifetime request = false := by
  unfold countsAtLink at found
  cases begun : link.newRequest with
  | false =>
    rw [begun] at found
    exact ⟨found, by simp [OriginStep.endsLifetime, begun]⟩
  | true =>
    rw [begun, if_pos rfl, lookup_erase_eq] at found
    split at found
    · cases found
    · rename_i differ
      exact ⟨found, by simp [OriginStep.endsLifetime, Ne.symm differ]⟩

theorem bioOrigins_linkBioPtrs :
    (state.linkBioPtrs link).bioOrigins = state.bioOrigins ∨
      (state.linkBioPtrs link).bioOrigins = state.bioOrigins.erase link.bio := by
  unfold linkBioPtrs
  split
  · exact .inl rfl
  · split
    · exact .inl rfl
    · dsimp only
      split
      · exact .inr rfl
      · split
        · exact .inl rfl
        · split
          · exact .inr rfl
          · exact .inl rfl

theorem lookup_of_bindActiveFileToBio {bio other : U64} {active : Option KernelFileOrigin}
    {stores : Bool}
    (found : (state.bindActiveFileToBio bio active stores).lookup other = some origin) :
    state.bioOrigins.lookup other = some origin ∨
      (state.exactAttribution = true ∧ other = bio ∧ bio ≠ 0) := by
  unfold bindActiveFileToBio at found
  split at found
  · exact .inl found
  · rename_i proceeds
    have erased : ((state.bioOrigins.erase bio : Table U64 KernelFileOrigin)).lookup other =
        some origin → state.bioOrigins.lookup other = some origin := by
      intro kept
      rw [lookup_erase_eq] at kept
      exact (ite_none_left_eq_some.mp kept).2
    cases active with
    | none => exact .inl (erased found)
    | some bound =>
      cases stores with
      | false => exact .inl (erased found)
      | true =>
        by_cases same : other = bio
        · simp only [Bool.or_eq_true, Bool.not_eq_true', decide_eq_true_eq, not_or,
            Bool.not_eq_false] at proceeds
          exact .inr ⟨proceeds.1, same, proceeds.2⟩
        · dsimp only at found
          rw [if_pos rfl, lookup_insert_eq, if_neg same] at found
          exact .inl (erased found)

theorem lookup_of_linkBioPtrs (enabled : state.exactAttribution = true) {count : U8}
    (found : (state.linkBioPtrs link).originCounts.lookup request = some count)
    (above : maxRequestOrigins < count) :
    (state.originCounts.lookup request = some count ∧
      (OriginStep.link link).endsLifetime request = false) ∨
      (link.request = request ∧ state.Signals link) := by
  by_cases null : link.request = 0 ∨ link.bio = 0
  · -- Nothing is done for a null pointer.
    have skipped : (!state.exactAttribution || (link.request = 0 || link.bio = 0)) = true := by
      simp [null]
    unfold linkBioPtrs at found
    rw [if_pos skipped] at found
    refine .inl ⟨found, ?_⟩
    rcases null with null | null <;> simp [OriginStep.endsLifetime, null]
  · obtain ⟨request_ne, bio_ne⟩ := not_or.mp null
    rcases linkBioPtrs_cases enabled request_ne bio_ne with
      ⟨kept, -⟩ | ⟨origin, -, limit, counted, effect⟩
    · rw [kept] at found
      exact .inl (lookup_of_countsAtLink found)
    · rw [counted, lookup_insert_eq] at found
      split at found
      · rename_i same
        refine .inr ⟨same.symm, ?_⟩
        rcases effect with reported | lost
        · -- Only the ninth origin goes above the limit, and it is marked.
          rw [← some.inj found] at above
          rw [if_pos (Word.eq_of_lt_saturatingAdd_one limit above)] at reported
          exact .inl (signals_of_marked reported)
        · exact .inr (countsLoss_of_updates lost)
      · exact .inl (lookup_of_countsAtLink found)

end OriginCapture

section Runs

variable {cpus : Nat}

def originsAfter (collectorPid : U32) (sessionId : String) (exact : Bool)
    (history : List (OriginStep cpus)) : OriginCapture cpus :=
  run (OriginCapture.step collectorPid sessionId) { exactAttribution := exact } history

/-- A sign of a loss was given for the request, and its lifetime has not ended since. -/
def Signalled (collectorPid : U32) (sessionId : String) (exact : Bool)
    (history : List (OriginStep cpus)) (request : U64) : Prop :=
  ∃ before link after, history = before ++ .link link :: after ∧ link.request = request ∧
    (∀ step ∈ after, step.endsLifetime request = false) ∧
    (originsAfter collectorPid sessionId exact before).Signals link

variable {collectorPid : U32} {sessionId : String} {exact : Bool}
  {history : List (OriginStep cpus)} {request : U64}

theorem Signalled.snoc (signalled : Signalled collectorPid sessionId exact history request)
    {step : OriginStep cpus} (goesOn : step.endsLifetime request = false) :
    Signalled collectorPid sessionId exact (history ++ [step]) request := by
  obtain ⟨before, link, after, split, same, within, signals⟩ := signalled
  refine ⟨before, link, after ++ [step], append_eq_of_split split _, same, ?_, signals⟩
  exact forall_mem_append.mpr ⟨within, forall_mem_singleton.mpr goesOn⟩

theorem signalled_link {link : BioLink cpus}
    (signals : (originsAfter collectorPid sessionId exact history).Signals link) :
    Signalled collectorPid sessionId exact (history ++ [.link link]) link.request :=
  ⟨history, link, [], rfl, rfl, fun _ member => absurd member not_mem_nil, signals⟩

theorem exactAttribution_of_recorded (collectorPid : U32) (sessionId : String) (exact : Bool)
    (history : List (OriginStep cpus)) :
    (originsAfter collectorPid sessionId exact history).exactAttribution = exact ∧
      ∀ bio origin,
        (originsAfter collectorPid sessionId exact history).bioOrigins.lookup bio = some origin →
          exact = true ∧ bio ≠ 0 := by
  refine run_induction (fun _ (state : OriginCapture cpus) => state.exactAttribution = exact ∧
    ∀ bio origin, state.bioOrigins.lookup bio = some origin → exact = true ∧ bio ≠ 0)
    ⟨rfl, fun _ _ found => absurd found (by simp)⟩ (fun history input known => ?_) history
  obtain ⟨same, recorded⟩ := known
  refine ⟨?_, fun bio origin found => ?_⟩
  · cases input <;> exact same
  · cases input with
    | capture step => exact recorded bio origin found
    | bind bound active stores =>
      rcases OriginCapture.lookup_of_bindActiveFileToBio found with before | ⟨enabled, rfl, bio_ne⟩
      · exact recorded bio origin before
      · exact ⟨same.symm.trans enabled, bio_ne⟩
    | link link =>
      refine recorded bio origin ?_
      have effect : (OriginCapture.linkBioPtrs _ link).bioOrigins.lookup bio = some origin := found
      rcases OriginCapture.bioOrigins_linkBioPtrs with kept | erased
      · rwa [kept] at effect
      · rw [erased, lookup_erase_eq] at effect
        exact (ite_none_left_eq_some.mp effect).2

theorem lookup_of_countsAfter {state : OriginCapture cpus} {step : CaptureStep cpus} {count : U8}
    (found : (state.countsAfter step).lookup request = some count) :
    state.originCounts.lookup request = some count ∧
      (OriginStep.capture step).endsLifetime request = false := by
  cases step with
  | apply config fails => exact ⟨found, rfl⟩
  | read => exact ⟨found, rfl⟩
  | probe probe =>
    unfold OriginCapture.countsAfter at found
    dsimp only at found
    split at found
    · rw [lookup_erase_eq] at found
      obtain ⟨differ, kept⟩ := ite_none_left_eq_some.mp found
      exact ⟨kept, by simp [OriginStep.endsLifetime, Ne.symm differ]⟩
    · rename_i other
      exact ⟨found, by simp [OriginStep.endsLifetime, other]⟩

theorem signalled_of_above (enabled : exact = true) (history : List (OriginStep cpus)) :
    ∀ request count,
      (originsAfter collectorPid sessionId exact history).originCounts.lookup request =
          some count → maxRequestOrigins < count →
        Signalled collectorPid sessionId exact history request := by
  refine run_induction (fun history (state : OriginCapture cpus) => ∀ request count,
    state.originCounts.lookup request = some count → maxRequestOrigins < count →
      Signalled collectorPid sessionId exact history request)
    (fun _ _ found => absurd found (by simp)) (fun history input known => ?_) history
  intro request count found above
  cases input with
  | capture step =>
    obtain ⟨before, goesOn⟩ := lookup_of_countsAfter found
    exact (known request count before above).snoc goesOn
  | bind bio active stores => exact (known request count found above).snoc rfl
  | link link =>
    have exactly := (exactAttribution_of_recorded collectorPid sessionId exact history).1.trans
      enabled
    rcases OriginCapture.lookup_of_linkBioPtrs exactly found above with
      ⟨before, goesOn⟩ | ⟨rfl, signals⟩
    · exact (known request count before above).snoc goesOn
    · exact signalled_link signals

/-- An origin that is recorded for a bio is reported when the bio becomes part of a request, or
there is a sign of the loss in the same lifetime of the request: an origin that is marked as
incomplete, or a loss that is counted. -/
theorem missing_origins_are_visible (collectorPid : U32) (sessionId : String) (exact : Bool)
    (history : List (OriginStep cpus)) (link : BioLink cpus) (origin : KernelFileOrigin)
    (recorded : (originsAfter collectorPid sessionId exact history).bioOrigins.lookup link.bio =
      some origin)
    (linked : link.request ≠ 0) (stored : link.storesCount = true) :
    originEvent link origin ∈
        ((originsAfter collectorPid sessionId exact history).linkBioPtrs link).events ∨
      Signalled collectorPid sessionId exact (history ++ [.link link]) link.request := by
  obtain ⟨same, known⟩ := exactAttribution_of_recorded collectorPid sessionId exact history
  obtain ⟨enabled, bio_ne⟩ := known link.bio origin recorded
  rcases OriginCapture.linkBioPtrs_cases (same.trans enabled) linked bio_ne with
    ⟨-, none_ | above | unstored⟩ | ⟨other, found, -, -, effect⟩
  · rw [recorded] at none_
    cases none_
  · -- The request is above the limit: the sign was given before.
    cases counted : (OriginCapture.countsAtLink _ link).lookup link.request with
    | none =>
      rw [counted] at above
      exact absurd above (by decide)
    | some count =>
      rw [counted] at above
      obtain ⟨before, goesOn⟩ := OriginCapture.lookup_of_countsAtLink counted
      have signalled := signalled_of_above enabled history link.request count before above
      exact .inr (signalled.snoc goesOn)
  · rw [stored] at unstored
    cases unstored
  · rw [recorded] at found
    cases found
    rcases effect with reported | lost
    · split at reported
      · exact .inr (signalled_link (.inl (OriginCapture.signals_of_marked reported)))
      · exact .inl (reported ▸ mem_singleton_self _)
    · exact .inr (signalled_link (.inr (OriginCapture.countsLoss_of_updates lost)))

end Runs

def writtenPage : KernelFileOrigin where
  tsNs := 50
  requestedBytes := 4096
  inode := 77
  mountId := 1
  fsDevice := 2
  inodeGeneration := 0
  pid := 10
  tid := 10
  originFlags := 0
  operation := operationCode .write

def linkOf (storesCount : Bool) : BioLink 1 where
  request := 5
  bio := 9
  newRequest := true
  tsNs := 100
  cpu := 0
  comm := []
  storesCount := storesCount
  reserves := true

/-- There is no room for the event that reports an origin: the origin is missing, and the loss is
counted. -/
theorem missing_origins_are_visible_unreserved :
    let history : List (OriginStep 1) := [.bind 9 (some writtenPage) true]
    let link := { linkOf true with reserves := false }
    (originsAfter 7 "s" true history).bioOrigins.lookup 9 = some writtenPage ∧
      ((originsAfter 7 "s" true history).linkBioPtrs link).events = [] ∧
      Signalled 7 "s" true (history ++ [.link link]) 5 := by
  intro history link
  have recorded : (originsAfter 7 "s" true history).bioOrigins.lookup 9 = some writtenPage := by
    decide +kernel
  have silent : ((originsAfter 7 "s" true history).linkBioPtrs link).events = [] := by
    decide +kernel
  refine ⟨recorded, silent, ?_⟩
  refine (missing_origins_are_visible 7 "s" true history link writtenPage recorded (by decide)
    rfl).resolve_left fun reported => ?_
  rw [silent] at reported
  cases reported

/-- The number of origins of a request cannot be stored. Its only origin is not reported and there
is no sign of it: when the request has completed, no counter of losses has moved. -/
theorem unstored_count_hides_origin :
    let bound : List (OriginStep 1) := [.bind 9 (some writtenPage) true]
    let history := bound ++ [.link (linkOf false), .capture (.probe (probeBy .issue 10 200)),
      .capture (.probe (probeBy .complete 0 300))]
    let counters := ((originsAfter 7 "s" true history).capture.kernel.aggregates 0).counters
    (originsAfter 7 "s" true bound).bioOrigins.lookup 9 = some writtenPage ∧
      ((originsAfter 7 "s" true bound).linkBioPtrs (linkOf false)).events = [] ∧
      ¬ Signalled 7 "s" true (bound ++ [.link (linkOf false)]) 5 ∧
      counters.observed = 1 ∧ counters.ringReserveFailures = 0 ∧
      counters.mapInsertFailures = 0 ∧ counters.expired = 0 ∧ counters.keyReused = 0 := by
  intro bound
  have silent : ((originsAfter 7 "s" true bound).linkBioPtrs (linkOf false)).events = [] ∧
      ((originsAfter 7 "s" true bound).linkBioPtrs (linkOf false)).updates = [] := by
    decide +kernel
  refine ⟨by decide +kernel, silent.1, ?_, by decide +kernel⟩
  rintro ⟨before, link, after, split, -, -, signals⟩
  rcases eq_or_exists_of_snoc_eq split with ⟨rfl, same⟩ | ⟨middle, earlier⟩
  · cases same
    rcases signals with ⟨event, emitted, -⟩ | ⟨counted, -⟩
    · rw [silent.1] at emitted
      cases emitted
    · rw [silent.2] at counted
      cases counted
  · -- The only step before the link is no link.
    change [OriginStep.bind 9 (some writtenPage) true] = _ at earlier
    match before, earlier with
    | [], earlier => cases earlier
    | _ :: before, earlier =>
      have lengths := congrArg length earlier
      simp at lengths

end EbpfStudio
