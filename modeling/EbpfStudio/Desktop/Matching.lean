/-
This file proves that a timed completion of a Perfetto trace has no rival.

`Followed` says of a reachable analyzer that nothing but inserts came into the range of a pending
issue that is not marked as compromised, and that the issues which touched it before are taken. A
completion gets a time only from its only candidate, which is then the last event there, and an
issue is taken once.
-/

import EbpfStudio.Desktop.Accounting

namespace EbpfStudio

open Run List Analyzer

/-! ### Events in trace order -/

variable (events : List BlockEvent)

theorem pairwise_eventRefs :
    (eventRefs events).Pairwise fun first second => first.position < second.position := by
  have positions : (eventRefs events).map (·.position) = range' 0 events.length := by
    unfold eventRefs
    rw [map_map]
    exact zipIdx_map_snd 0 events
  refine pairwise_map.mp ?_
  rw [positions]
  exact pairwise_lt_range'

theorem stepsMeet_eventRefs :
    StepsMeet (fun history ref => ∀ before ∈ history, before.position < ref.position)
      (eventRefs events) := by
  intro history ref rest split before member
  have ordered := pairwise_eventRefs events
  rw [split] at ordered
  exact (pairwise_append.mp ordered).2.2 before member ref mem_cons_self

/-! ### The pending issues after an event -/

variable {pending : List Pending}

theorem mem_compromise {event : EventRef} {entry : Pending}
    (member : entry ∈ compromise event pending) :
    ∃ old ∈ pending, entry.issue = old.issue ∧ (entry.compromised = false →
      old.compromised = false ∧ old.issue.overlaps event = false) := by
  obtain ⟨old, waiting, rfl⟩ := mem_map.mp member
  refine ⟨old, waiting, ?_⟩
  split
  · exact ⟨rfl, fun impossible => by cases impossible⟩
  · rename_i apart
    exact ⟨rfl, fun untouched => ⟨untouched, Bool.eq_false_iff.mpr apart⟩⟩

theorem issue_mem_compromise (event : EventRef) {old : Pending} (waiting : old ∈ pending) :
    ∃ entry ∈ compromise event pending, entry.issue = old.issue := by
  have listed : old.issue ∈ (compromise event pending).map (·.issue) := by
    rw [map_issue_compromise]
    exact mem_map_of_mem waiting
  exact mem_map.mp listed

namespace Analyzer

def heldAfter (analyzer : Analyzer) (ref : EventRef) : List Pending :=
  let list := analyzer.pending.listAt ref.key
  let insert := insertOf ref (analyzer.inserted.listAt ref.key)
  match ref.event.kind with
  | .insert => list
  | .issue =>
    if maxPendingPerDevice ≤ list.length then [⟨ref, insert, true⟩]
    else compromise ref list ++ [⟨ref, insert,
      decide (ref.key ∈ analyzer.limited) || list.any (·.issue.overlaps ref)⟩]
  | .requeue => compromise ref list
  | .complete => settle ref list

theorem listAt_step (unreliable : Bool) (analyzer : Analyzer) (ref : EventRef)
    (key : RangeKey) :
    (analyzer.step unreliable ref).pending.listAt key =
      if key = ref.key then analyzer.heldAfter ref else analyzer.pending.listAt key := by
  unfold step heldAfter
  cases ref.event.kind with
  | insert =>
    simp only [onInsert]
    have same : analyzer.pending.listAt key = if key = ref.key then
        analyzer.pending.listAt ref.key else analyzer.pending.listAt key := by
      split
      · rename_i equal
        rw [equal]
      · rfl
    split <;> exact same
  | issue =>
    simp only [onIssue, length_compromise]
    split <;> exact Table.listAt_insert _ _ _ _
  | requeue => exact Table.listAt_insert _ _ _ _
  | complete => exact Table.listAt_insert _ _ _ _

theorem limited_step (unreliable : Bool) (analyzer : Analyzer) (ref : EventRef) :
    analyzer.limited ⊆ (analyzer.step unreliable ref).limited := by
  unfold step
  cases ref.event.kind with
  | insert =>
    simp only [onInsert]
    split
    · exact subset_cons_self _ _
    · exact Subset.refl _
  | issue =>
    simp only [onIssue]
    split
    · exact subset_cons_self _ _
    · exact Subset.refl _
  | requeue | complete => exact Subset.refl _

section Step

variable {analyzer : Analyzer} {ref : EventRef}

theorem mem_heldAfter {entry : Pending} (member : entry ∈ analyzer.heldAfter ref) :
    (∃ old ∈ analyzer.pending.listAt ref.key, entry.issue = old.issue ∧
      (entry.compromised = false → old.compromised = false ∧
        (ref.event.kind = .insert ∨ old.issue.overlaps ref = false))) ∨
    (ref.event.kind = .issue ∧ entry.issue = ref ∧ (entry.compromised = false →
      ref.key ∉ analyzer.limited ∧
        ∀ old ∈ analyzer.pending.listAt ref.key, old.issue.overlaps ref = false)) := by
  have marked : ∀ {entry}, entry ∈ compromise ref (analyzer.pending.listAt ref.key) →
      ∃ old ∈ analyzer.pending.listAt ref.key, entry.issue = old.issue ∧
        (entry.compromised = false → old.compromised = false ∧
          (ref.event.kind = .insert ∨ old.issue.overlaps ref = false)) := by
    intro entry member
    obtain ⟨old, waiting, same, untouched⟩ := mem_compromise member
    exact ⟨old, waiting, same, fun clear => (untouched clear).imp_right .inr⟩
  unfold heldAfter at member
  cases kind : ref.event.kind with
  | insert =>
    rw [kind] at member
    exact .inl ⟨entry, member, rfl, fun clear => ⟨clear, .inl rfl⟩⟩
  | issue =>
    rw [kind] at member marked
    dsimp only at member
    split at member
    · rw [mem_singleton.mp member]
      exact .inr ⟨rfl, rfl, fun impossible => by cases impossible⟩
    · rcases mem_append.mp member with old | new
      · exact .inl (marked old)
      · rw [mem_singleton.mp new]
        refine .inr ⟨rfl, rfl, fun clear => ?_⟩
        obtain ⟨unlimited, apart⟩ := Bool.or_eq_false_iff.mp clear
        refine ⟨of_decide_eq_false unlimited, fun old waiting => ?_⟩
        exact Bool.eq_false_iff.mpr (any_eq_false.mp apart old waiting)
  | requeue =>
    rw [kind] at member marked
    exact .inl (marked member)
  | complete =>
    rw [kind] at member marked
    dsimp only at member
    unfold settle at member
    split at member
    · obtain ⟨waiting, apart⟩ := mem_filter.mp member
      exact .inl ⟨entry, waiting, rfl, fun clear => ⟨clear, .inr (by simpa using apart)⟩⟩
    · exact .inl (marked member)

theorem ref_mem_heldAfter (isIssue : ref.event.kind = .issue) :
    ∃ entry ∈ analyzer.heldAfter ref, entry.issue = ref := by
  unfold heldAfter
  rw [isIssue]
  dsimp only
  split
  · exact ⟨_, mem_singleton_self _, rfl⟩
  · exact ⟨_, mem_concat_self, rfl⟩

theorem issue_mem_heldAfter (unreliable : Bool) {old : Pending}
    (waiting : old ∈ analyzer.pending.listAt ref.key) :
    (∃ entry ∈ analyzer.heldAfter ref, entry.issue = old.issue) ∨
      (old.issue, ref) ∈ (analyzer.consumes ref).toList ∨
      ref.key ∈ (analyzer.step unreliable ref).limited := by
  unfold heldAfter consumes step
  cases kind : ref.event.kind with
  | insert => exact .inl ⟨old, waiting, rfl⟩
  | issue =>
    simp only [onIssue, length_compromise]
    split
    · exact .inr (.inr mem_cons_self)
    · obtain ⟨entry, member, same⟩ := issue_mem_compromise ref waiting
      exact .inl ⟨entry, mem_append_left _ member, same⟩
  | requeue => exact .inl (issue_mem_compromise ref waiting)
  | complete =>
    dsimp only
    unfold settle
    cases known : takenBy ref (analyzer.pending.listAt ref.key) with
    | none => exact .inl (issue_mem_compromise ref waiting)
    | some taken =>
      by_cases touched : old.issue.overlaps ref = true
      · refine .inr (.inl ?_)
        have candidate : old ∈ candidates ref (analyzer.pending.listAt ref.key) :=
          mem_filter.mpr ⟨waiting, touched⟩
        rw [(takenBy_eq_some known).1, mem_singleton] at candidate
        rw [candidate, if_pos rfl]
        exact mem_singleton.mpr rfl
      · refine .inl ⟨old, ?_, rfl⟩
        rw [if_pos Option.isSome_some]
        exact mem_filter.mpr ⟨waiting, by simpa using touched⟩

end Step

end Analyzer

/-! ### Clear issues -/

/-- Nothing but inserts touched the range of an issue after it, and every issue that touched it
before had been taken. -/
structure Clear (history : List EventRef) (taken : List (EventRef × EventRef))
    (issue : EventRef) : Prop where
  alone : ∀ other ∈ history, issue.position < other.position → other.key = issue.key →
    issue.overlaps other = true → other.event.kind = .insert
  first : ∀ other ∈ history, other.event.kind = .issue → other.position < issue.position →
    other.key = issue.key → other.overlaps issue = true →
      ∃ complete, (other, complete) ∈ taken ∧ complete.position < issue.position

structure Consumed (history : List EventRef) (issue complete : EventRef) : Prop where
  issued : issue ∈ history
  completed : complete ∈ history
  isIssue : issue.event.kind = .issue
  isComplete : complete.event.kind = .complete
  sameKey : complete.key = issue.key
  sameRange : issue.sameRange complete = true
  earlier : issue.position < complete.position

structure Followed (history : List EventRef) (analyzer : Analyzer)
    (taken : List (EventRef × EventRef)) : Prop where
  held : ∀ key, ∀ entry ∈ analyzer.pending.listAt key, entry.issue ∈ history ∧
    entry.issue.event.kind = .issue ∧ entry.issue.key = key
  clear : ∀ key, ∀ entry ∈ analyzer.pending.listAt key, entry.compromised = false →
    Clear history taken entry.issue
  waits : ∀ ref ∈ history, ref.event.kind = .issue → ref.key ∉ analyzer.limited →
    (∃ entry ∈ analyzer.pending.listAt ref.key, entry.issue = ref) ∨
      ∃ complete, (ref, complete) ∈ taken
  consumed : ∀ issue complete, (issue, complete) ∈ taken → Consumed history issue complete

section Step

variable {history : List EventRef} {analyzer : Analyzer} {taken : List (EventRef × EventRef)}
  {ref : EventRef}

theorem Clear.snoc {issue : EventRef} (clear : Clear history taken issue)
    (earlier : issue.position < ref.position)
    (untouched : ref.key = issue.key → ref.event.kind = .insert ∨ issue.overlaps ref = false)
    (more : List (EventRef × EventRef)) : Clear (history ++ [ref]) (taken ++ more) issue where
  alone other member after sameKey touches := by
    rcases mem_append.mp member with old | new
    · exact clear.alone other old after sameKey touches
    · cases mem_singleton.mp new
      refine (untouched sameKey).resolve_right fun apart => ?_
      rw [apart] at touches
      cases touches
  first other member isIssue before sameKey touches := by
    rcases mem_append.mp member with old | new
    · obtain ⟨complete, consumed, done⟩ := clear.first other old isIssue before sameKey touches
      exact ⟨complete, mem_append_left _ consumed, done⟩
    · cases mem_singleton.mp new
      exact absurd earlier (lt_asymm before)

theorem Consumed.snoc {issue complete : EventRef} (consumed : Consumed history issue complete) :
    Consumed (history ++ [ref]) issue complete :=
  { consumed with
    issued := mem_append_left _ consumed.issued
    completed := mem_append_left _ consumed.completed }

theorem Followed.clear_new (followed : Followed history analyzer taken)
    (later : ∀ before ∈ history, before.position < ref.position)
    (unlimited : ref.key ∉ analyzer.limited)
    (free : ∀ old ∈ analyzer.pending.listAt ref.key, old.issue.overlaps ref = false)
    (more : List (EventRef × EventRef)) : Clear (history ++ [ref]) (taken ++ more) ref where
  alone other member after _ _ := by
    rcases mem_append.mp member with old | new
    · exact absurd after (lt_asymm (later other old))
    · rw [mem_singleton.mp new] at after
      exact absurd after (lt_irrefl _)
  first other member isIssue before sameKey touches := by
    rcases mem_append.mp member with old | new
    · have notLimited : other.key ∉ analyzer.limited := by
        rw [sameKey]
        exact unlimited
      rcases followed.waits other old isIssue notLimited with ⟨entry, waiting, rfl⟩ | consumed
      · rw [sameKey] at waiting
        rw [free entry waiting] at touches
        cases touches
      · obtain ⟨complete, pair⟩ := consumed
        exact ⟨complete, mem_append_left _ pair,
          later complete (followed.consumed other complete pair).completed⟩
    · rw [mem_singleton.mp new] at before
      exact absurd before (lt_irrefl _)

theorem mem_of_takenBy {pending : List Pending} {entry : Pending}
    (taken : takenBy ref pending = some entry) : entry ∈ pending := by
  have candidate : entry ∈ candidates ref pending := by
    rw [(takenBy_eq_some taken).1]
    exact mem_singleton_self _
  exact (mem_filter.mp candidate).1

theorem Followed.consumed_new (followed : Followed history analyzer taken)
    (later : ∀ before ∈ history, before.position < ref.position) {issue complete : EventRef}
    (consumes : analyzer.consumes ref = some (issue, complete)) :
    Consumed (history ++ [ref]) issue complete := by
  obtain ⟨isComplete, taken⟩ := Option.ite_none_right_eq_some.mp consumes
  obtain ⟨entry, found, same⟩ := Option.map_eq_some_iff.mp taken
  cases same
  have waiting := mem_of_takenBy found
  obtain ⟨issued, isIssue, sameKey⟩ := followed.held _ entry waiting
  exact
    { issued := mem_append_left _ issued
      completed := mem_concat_self
      isIssue := isIssue
      isComplete := isComplete
      sameKey := sameKey.symm
      sameRange := (takenBy_eq_some found).2
      earlier := later _ issued }

theorem Followed.step (followed : Followed history analyzer taken) (unreliable : Bool)
    (later : ∀ before ∈ history, before.position < ref.position) :
    Followed (history ++ [ref]) (analyzer.step unreliable ref)
      (taken ++ (analyzer.consumes ref).toList) where
  held key entry member := by
    rw [listAt_step] at member
    split at member
    · rename_i same
      rcases mem_heldAfter member with ⟨old, waiting, issue, -⟩ | ⟨isIssue, issue, -⟩
      · obtain ⟨issued, kind, sameKey⟩ := followed.held _ old waiting
        rw [issue, same]
        exact ⟨mem_append_left _ issued, kind, sameKey⟩
      · rw [issue, same]
        exact ⟨mem_concat_self, isIssue, rfl⟩
    · obtain ⟨issued, kind, sameKey⟩ := followed.held key entry member
      exact ⟨mem_append_left _ issued, kind, sameKey⟩
  clear key entry member unmarked := by
    rw [listAt_step] at member
    split at member
    · rcases mem_heldAfter member with ⟨old, waiting, issue, marks⟩ | ⟨-, issue, marks⟩
      · obtain ⟨oldUnmarked, untouched⟩ := marks unmarked
        obtain ⟨issued, -, -⟩ := followed.held _ old waiting
        rw [issue]
        exact (followed.clear _ old waiting oldUnmarked).snoc (later _ issued)
          (fun _ => untouched) _
      · obtain ⟨unlimited, free⟩ := marks unmarked
        rw [issue]
        exact followed.clear_new later unlimited free _
    · rename_i different
      obtain ⟨issued, -, sameKey⟩ := followed.held key entry member
      refine (followed.clear key entry member unmarked).snoc (later _ issued) (fun same => ?_) _
      exact absurd (same.trans sameKey).symm different
  waits other member isIssue unlimited := by
    rw [listAt_step]
    rcases mem_append.mp member with old | new
    · have before : other.key ∉ analyzer.limited := fun limited =>
        unlimited (analyzer.limited_step unreliable ref limited)
      rcases followed.waits other old isIssue before with ⟨entry, waiting, same⟩ | ⟨complete, pair⟩
      · by_cases sameKey : other.key = ref.key
        · rw [if_pos sameKey]
          rw [sameKey] at waiting unlimited
          rcases issue_mem_heldAfter unreliable waiting with kept | consumed | limited
          · rw [same] at kept
            exact .inl kept
          · rw [same] at consumed
            exact .inr ⟨ref, mem_append_right _ consumed⟩
          · exact absurd limited unlimited
        · rw [if_neg sameKey]
          exact .inl ⟨entry, waiting, same⟩
      · exact .inr ⟨complete, mem_append_left _ pair⟩
    · cases mem_singleton.mp new
      rw [if_pos rfl]
      exact .inl (ref_mem_heldAfter isIssue)
  consumed issue complete pair := by
    rcases mem_append.mp pair with old | new
    · exact (followed.consumed issue complete old).snoc
    · exact followed.consumed_new later (Option.mem_toList.mp new)

end Step

variable {refs : List EventRef} (unreliable : Bool)

theorem followed_run
    (ordered : StepsMeet (fun history ref => ∀ before ∈ history,
      before.position < ref.position) refs) :
    Followed refs (run (step unreliable) {} refs)
      (collect (step unreliable) consumes {} refs) := by
  refine run_induction_of_stepsMeet (fun history (analyzer : Analyzer) =>
    Followed history analyzer (collect (step unreliable) consumes {} history))
    ⟨?_, ?_, ?_, ?_⟩ (fun history ref later followed => ?_) refs ordered
  · exact fun _ _ member => by cases member
  · exact fun _ _ member => by cases member
  · exact fun _ member => by cases member
  · exact fun _ _ member => by cases member
  · rw [collect_snoc]
    exact followed.step unreliable later

/-! ### Timed completions -/

/-- A completion with a time: its only candidate is an earlier issue of the same device,
operation and range, the latency is the positive difference of the two timestamps, which are of
the default clock, no other issue, requeue or completion of the key touched the range in
between, and each earlier issue of the key that touched it had been taken by a completion of
its own range before the issue. -/
structure Unambiguous (refs : List EventRef) (taken : List (EventRef × EventRef))
    (observation : BlockObservation) (latencyNs : U64) (issue complete : EventRef) : Prop where
  observed : observation.completionRecord = complete.event.recordId
  candidate : observation.issueCandidates = [issue.event.recordId]
  consumed : (issue, complete) ∈ taken
  consumption : Consumed refs issue complete
  device : complete.event.deviceEncoded = issue.event.deviceEncoded
  operation : complete.event.operation = issue.event.operation
  range : complete.event.sector = issue.event.sector ∧
    complete.event.sectors = issue.event.sectors
  latency : latencyNs.val = complete.event.timestampNs.val - issue.event.timestampNs.val
  positive : 0 < latencyNs
  clocks : issue.event.clock = 0 ∧ complete.event.clock = 0
  alone : ∀ other ∈ refs, issue.position < other.position → other.position < complete.position →
    other.key = issue.key → issue.overlaps other = true → other.event.kind = .insert
  first : ∀ other ∈ refs, other.event.kind = .issue → other.position < issue.position →
    other.key = issue.key → other.overlaps issue = true →
      ∃ consumer, (other, consumer) ∈ taken ∧ Consumed refs other consumer ∧
        consumer.position < issue.position

theorem judge_eq_matched {unreliable : Bool} {complete : BlockEvent} {entry : Pending}
    (matched : judge unreliable complete entry = .matched) :
    entry.compromised = false ∧ (complete.clock = 0 ∧ entry.issue.event.clock = 0) ∧
      entry.issue.event.timestampNs < complete.timestampNs := by
  unfold judge at matched
  split at matched
  · cases matched
  rename_i untouched
  split at matched
  · cases matched
  split at matched
  · cases matched
  rename_i clocks
  split at matched
  · cases matched
  rename_i ordered
  simp only [Bool.or_eq_true, not_or, Bool.not_eq_true] at untouched
  simp only [ne_eq, Bool.or_eq_true, decide_eq_true_eq, not_or, not_not] at clocks
  exact ⟨untouched.1, clocks, not_le.mp ordered⟩

theorem observe_cases (complete : EventRef) (pending : List Pending) :
    (∃ entries reason, observe unreliable complete pending =
      observation complete.event entries reason) ∨
    ∃ entry, takenBy complete pending = some entry ∧
      judge unreliable complete.event entry = .matched ∧
      observe unreliable complete pending = matchedObservation complete.event entry := by
  cases known : takenBy complete pending with
  | none => exact .inl (observe_of_untaken unreliable known)
  | some entry =>
    have observed := observe_of_taken unreliable known
    by_cases matched : judge unreliable complete.event entry = .matched
    · rw [if_pos matched] at observed
      exact .inr ⟨entry, rfl, matched, observed⟩
    · rw [if_neg matched] at observed
      exact .inl ⟨_, _, observed⟩

section Timed

variable {history : List EventRef} {analyzer : Analyzer} {taken : List (EventRef × EventRef)}
  {ref : EventRef}

variable {latencyNs : U64}

theorem Unambiguous.snoc {observation : BlockObservation} {issue complete : EventRef}
    (unambiguous : Unambiguous history taken observation latencyNs issue complete)
    (later : ∀ before ∈ history, before.position < ref.position)
    (more : List (EventRef × EventRef)) :
    Unambiguous (history ++ [ref]) (taken ++ more) observation latencyNs issue complete :=
  { unambiguous with
    consumed := mem_append_left _ unambiguous.consumed
    consumption := unambiguous.consumption.snoc
    alone := fun other member after before sameKey touches => by
      rcases mem_append.mp member with old | new
      · exact unambiguous.alone other old after before sameKey touches
      · cases mem_singleton.mp new
        exact absurd before (lt_asymm (later _ unambiguous.consumption.completed))
    first := fun other member isIssue before sameKey touches => by
      rcases mem_append.mp member with old | new
      · obtain ⟨consumer, pair, consumed, done⟩ :=
          unambiguous.first other old isIssue before sameKey touches
        exact ⟨consumer, mem_append_left _ pair, consumed.snoc, done⟩
      · cases mem_singleton.mp new
        exact absurd before (lt_asymm (later _ unambiguous.consumption.issued)) }

theorem Followed.unambiguous (followed : Followed history analyzer taken) {unreliable : Bool}
    (later : ∀ before ∈ history, before.position < ref.position)
    (complete : ref.event.kind = .complete)
    (timed : (observe unreliable ref (analyzer.pending.listAt ref.key)).deviceLatencyNs =
      some latencyNs) :
    ∃ issue, Unambiguous (history ++ [ref]) (taken ++ (analyzer.consumes ref).toList)
      (observe unreliable ref (analyzer.pending.listAt ref.key)) latencyNs issue ref := by
  rcases observe_cases unreliable ref (analyzer.pending.listAt ref.key) with
    ⟨_, _, untimed⟩ | ⟨entry, found, matched, observed⟩
  · rw [untimed] at timed
    cases timed
  rw [observed] at timed ⊢
  obtain ⟨unmarked, clocks, ordered⟩ := judge_eq_matched matched
  have consumes : analyzer.consumes ref = some (entry.issue, ref) := by
    unfold consumes
    rw [if_pos complete, found]
    rfl
  have consumed := followed.consumed_new later consumes
  have clear := followed.clear _ entry (mem_of_takenBy found) unmarked
  have range := consumed.sameRange
  simp only [EventRef.sameRange, BlockEvent.sameRange, Bool.and_eq_true,
    decide_eq_true_eq] at range
  have latency : ref.event.timestampNs.saturatingSub entry.issue.event.timestampNs.val =
      latencyNs := Option.some.inj timed
  refine ⟨entry.issue, rfl, rfl, ?_, consumed, congrArg Prod.fst consumed.sameKey,
    congrArg Prod.snd consumed.sameKey, ⟨range.1.symm, range.2.symm⟩, ?_, ?_, clocks.symm,
    fun other member after before sameKey touches => ?_,
    fun other member isIssue before sameKey touches => ?_⟩
  · rw [consumes]
    exact mem_concat_self
  · rw [← latency, Word.saturatingSub_val]
  · rw [← latency, Fin.lt_def, Word.saturatingSub_val]
    exact Nat.sub_pos_of_lt ordered
  · rcases mem_append.mp member with old | new
    · exact clear.alone other old after sameKey touches
    · rw [mem_singleton.mp new] at before
      exact absurd before (lt_irrefl _)
  · rcases mem_append.mp member with old | new
    · obtain ⟨consumer, pair, done⟩ := clear.first other old isIssue before sameKey touches
      exact ⟨consumer, mem_append_left _ pair,
        (followed.consumed other consumer pair).snoc, done⟩
    · cases mem_singleton.mp new
      exact absurd consumed.earlier (lt_asymm before)

end Timed

def Justified (refs : List EventRef) (taken : List (EventRef × EventRef))
    (observation : BlockObservation) (complete : EventRef) : Prop :=
  ∀ latencyNs, observation.deviceLatencyNs = some latencyNs →
    ∃ issue, Unambiguous refs taken observation latencyNs issue complete

theorem forall₂_justified
    (ordered : StepsMeet (fun history ref => ∀ before ∈ history,
      before.position < ref.position) refs) :
    Forall₂
      (Justified refs (collect (step unreliable) consumes {} refs))
      (collect (step unreliable) (observes unreliable) {} refs)
      (refs.filter (·.event.kind = .complete)) := by
  induction refs using reverseRecOn with
  | nil => exact Forall₂.nil
  | append_singleton history ref hypothesis =>
    have later := ordered.last
    have followed := followed_run unreliable ordered.of_append
    rw [collect_snoc, collect_snoc, filter_append, filter_singleton]
    refine rel_append ?_ ?_
    · refine (hypothesis ordered.of_append).imp
        fun observation complete justified latencyNs timed => ?_
      obtain ⟨issue, unambiguous⟩ := justified latencyNs timed
      exact ⟨issue, unambiguous.snoc later _⟩
    · unfold observes
      by_cases complete : ref.event.kind = .complete
      · rw [if_pos complete, decide_eq_true complete, cond_true]
        refine Forall₂.cons (fun latencyNs timed => ?_) Forall₂.nil
        exact followed.unambiguous later complete timed
      · rw [if_neg complete, decide_eq_false complete, cond_false]
        exact Forall₂.nil

theorem forall₂_getElem? {First Second : Type} {relation : First → Second → Prop}
    {firsts : List First} {seconds : List Second}
    (related : Forall₂ relation firsts seconds) {index : Nat} {first : First}
    (found : firsts[index]? = some first) :
    ∃ second, seconds[index]? = some second ∧ relation first second := by
  induction related generalizing index with
  | nil => cases found
  | cons here _ hypothesis =>
    cases index with
    | zero =>
      cases found
      exact ⟨_, rfl, here⟩
    | succ index => exact hypothesis found

def Reports (trace : DecodedTrace) (number : Nat) (issue : EventRef) : Prop :=
  ∃ observation latencyNs complete,
    (analyze trace).completions[number]? = some observation ∧
    observation.deviceLatencyNs = some latencyNs ∧
    ((eventRefs trace.events).filter (·.event.kind = .complete))[number]? = some complete ∧
    Unambiguous (eventRefs trace.events) (consumption trace) observation latencyNs issue complete

theorem nodup_eventRefs : (eventRefs events).Nodup :=
  (pairwise_eventRefs events).imp fun before same => by
    rw [same] at before
    exact lt_irrefl _ before

theorem consumption_injective {trace : DecodedTrace} {issue first second : EventRef}
    (firstTaken : (issue, first) ∈ consumption trace)
    (secondTaken : (issue, second) ∈ consumption trace) : first = second := by
  obtain ⟨listed, -, accounted⟩ := perm_issues trace
  have distinct : ((consumption trace).map (·.1) ++ listed).Nodup :=
    accounted.nodup_iff.mpr ((nodup_eventRefs trace.events).sublist filter_sublist)
  have same := inj_on_of_nodup_map (Nodup.of_append_left distinct) firstTaken
    secondTaken rfl
  exact congrArg Prod.snd same

/-- Whenever the analysis reports a latency, an issue justifies it, and no issue justifies the
latencies of two completions. -/
theorem latencies_are_unambiguous (trace : DecodedTrace) :
    (∀ number observation latencyNs, (analyze trace).completions[number]? = some observation →
      observation.deviceLatencyNs = some latencyNs → ∃ issue, Reports trace number issue) ∧
    ∀ first second issue, Reports trace first issue → Reports trace second issue →
      first = second := by
  constructor
  · intro number observation latencyNs found timed
    have observed := found
    rw [completions_analyze] at observed
    obtain ⟨complete, stands, justified⟩ := forall₂_getElem?
      (forall₂_justified trace.quality.compromised (stepsMeet_eventRefs trace.events)) observed
    obtain ⟨issue, unambiguous⟩ := justified latencyNs timed
    exact ⟨issue, observation, latencyNs, complete, found, timed, stands, unambiguous⟩
  · rintro first second issue ⟨_, _, complete, _, _, stands, unambiguous⟩
      ⟨_, _, other, _, _, otherStands, otherUnambiguous⟩
    have same := consumption_injective unambiguous.consumed otherUnambiguous.consumed
    have inside := (List.getElem?_eq_some_iff.mp stands).1
    rw [← same, ← stands] at otherStands
    exact (List.getElem?_inj inside
      ((nodup_eventRefs trace.events).sublist filter_sublist)).mp otherStands.symm

-- a read is timed by its issue, and the insert gives its time in the queue
example : (analyze { events := [pageEvent 1 .insert 100, pageEvent 2 .issue 200,
    pageEvent 3 .complete 500] }).completions.map
      (fun observation => (observation.deviceLatencyNs, observation.queueLatencyNs)) =
        [(some 300, some 100)] := by
  decide +kernel

end EbpfStudio
