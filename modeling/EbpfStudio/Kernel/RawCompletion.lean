/-
This file models how the raw block probe puts the parts of a completion together.

An issue starts a count of the bytes that are left. Every part takes its bytes from the
count, unless it has more than are left, and keeps the first failure. The part that
leaves nothing ends the request, and only this one goes on to the block events.
-/

import EbpfStudio.Kernel.Block
import EbpfStudio.Library.Run

namespace EbpfStudio

open Run List Option Table Word

/-- The bytes that are left, and the first failure. -/
structure CompletionState where
  remaining : U32
  error : Int
  deriving DecidableEq

namespace CompletionState

def new (bytes : U32) : CompletionState := ⟨bytes, 0⟩

/-- The state after a part and whether nothing is left, or nothing if the part has too much. -/
def advance (state : CompletionState) (bytes : U32) (error : Int) :
    Option (CompletionState × Bool) :=
  if state.remaining < bytes then none
  else
    let remaining := state.remaining.saturatingSub bytes.val
    some (⟨remaining, if state.error = 0 then error else state.error⟩, remaining = 0)

end CompletionState

structure RawProbe where
  kind : BlockProbeKind
  requestId : U64
  device : U32
  sector : U64
  bytes : U32
  flags : U32
  completed : U32
  rawStatus : U8
  deriving DecidableEq

namespace RawProbe

def operation (probe : RawProbe) : U8 :=
  match probe.flags.val % 256 with
  | 0 => operationCode .read
  | 1 => operationCode .write
  | 2 => operationCode .flush
  | 3 => operationCode .discard
  | _ => operationCode .other

def status (probe : RawProbe) : Int :=
  match probe.rawStatus.val with
  | 0 => 0
  | 1 => -95
  | 2 => -110
  | 3 => -28
  | 4 => -67
  | 5 => -121
  | 6 => -52
  | 7 => -61
  | 8 => -84
  | 9 => -12
  | 10 => -5
  | 11 => -78
  | 12 => -11
  | 13 => -16
  | 14 => -109
  | 15 => -75
  | 16 => -19
  | 17 => -62
  | 19 => -22
  | _ => -5

def decoded (probe : RawProbe) (status : Int) : BlockDecoded where
  kind := probe.kind
  device := probe.device
  sector := probe.sector
  sectors := Word.ofNat 32 (probe.bytes.val / 512)
  bytes := probe.bytes
  operation := probe.operation
  requestId := probe.requestId
  correlationExact := true
  status := status

end RawProbe

/-- The states after a raw probe, and the event that goes on. -/
def handleRawBlock (states : Table U64 CompletionState) (probe : RawProbe) :
    Table U64 CompletionState × Option BlockDecoded :=
  if probe.requestId = 0 then (states, none)
  else
    match probe.kind with
    | .insert => (states, some (probe.decoded 0))
    | .issue => (states.insert probe.requestId (.new probe.bytes), some (probe.decoded 0))
    | .complete =>
      match states.lookup probe.requestId with
      | none => (states, none)
      | some state =>
        match state.advance probe.completed probe.status with
        | some (next, false) => (states.insert probe.requestId next, none)
        | some (next, true) => (states.erase probe.requestId, some (probe.decoded next.error))
        | none => (states, none)

/-- The bytes of an issue and the parts accepted since. -/
structure Lifetime where
  issued : U32
  parts : List RawProbe
  deriving DecidableEq

namespace Lifetime

def total (lifetime : Lifetime) : Nat := (lifetime.parts.map (·.completed.val)).sum

def Finished (lifetime : Lifetime) : Prop :=
  lifetime.parts ≠ [] ∧ lifetime.total = lifetime.issued.val

def Accepts (lifetime : Lifetime) (part : RawProbe) : Prop :=
  ¬ lifetime.Finished ∧ lifetime.total + part.completed.val ≤ lifetime.issued.val

instance (lifetime : Lifetime) (part : RawProbe) : Decidable (lifetime.Accepts part) := by
  unfold Accepts Finished
  infer_instance

def push (lifetime : Lifetime) (part : RawProbe) : Lifetime :=
  { lifetime with parts := lifetime.parts ++ [part] }

def firstFailure (lifetime : Lifetime) : Int :=
  ((lifetime.parts.map (·.status)).find? (· ≠ 0)).getD 0

def follow (lifetime : Option Lifetime) (probe : RawProbe) : Option Lifetime :=
  match probe.kind with
  | .insert => lifetime
  | .issue => some ⟨probe.bytes, []⟩
  | .complete => lifetime.map fun lifetime =>
    if lifetime.Accepts probe then lifetime.push probe else lifetime

theorem total_push (lifetime : Lifetime) (part : RawProbe) :
    (lifetime.push part).total = lifetime.total + part.completed.val := by
  unfold total push
  rw [map_append, sum_append, map_singleton, sum_singleton]

theorem firstFailure_push (lifetime : Lifetime) (part : RawProbe) :
    (lifetime.push part).firstFailure =
      if lifetime.firstFailure = 0 then part.status else lifetime.firstFailure := by
  unfold firstFailure push
  rw [map_append, find?_append, map_singleton, find?_singleton]
  cases found : (lifetime.parts.map (·.status)).find? (· ≠ 0) with
  | none => grind
  | some failure =>
    have failed := find?_some found
    grind

def Represents (lifetime : Option Lifetime) (state : Option CompletionState) : Prop :=
  match lifetime with
  | none => state = none
  | some lifetime => lifetime.total ≤ lifetime.issued.val ∧
      (lifetime.Finished → state = none) ∧
      (¬ lifetime.Finished → ∃ remaining, state = some ⟨remaining, lifetime.firstFailure⟩ ∧
        remaining.val + lifetime.total = lifetime.issued.val)

end Lifetime

section Parts

variable {states : Table U64 CompletionState} {lifetime : Option Lifetime} {part : RawProbe}

theorem handleRawBlock_cases (nonzero : part.requestId ≠ 0) (complete : part.kind = .complete)
    (represents : Lifetime.Represents lifetime (states.lookup part.requestId)) :
    (∃ current, lifetime = some current ∧ current.Accepts part ∧
        (current.push part).total = current.issued.val ∧
        handleRawBlock states part = (states.erase part.requestId,
          some (part.decoded (current.push part).firstFailure))) ∨
      (∃ current next, lifetime = some current ∧ current.Accepts part ∧
        (current.push part).total ≠ current.issued.val ∧
        handleRawBlock states part = (states.insert part.requestId next, none) ∧
        next.error = (current.push part).firstFailure ∧
        next.remaining.val + (current.push part).total = current.issued.val) ∨
      (∀ current, lifetime = some current → ¬ current.Accepts part) ∧
        handleRawBlock states part = (states, none) := by
  unfold handleRawBlock
  rw [if_neg nonzero, complete]
  cases lifetime with
  | none =>
    rw [show states.lookup part.requestId = none from represents]
    exact .inr (.inr ⟨fun _ known => (nomatch known), rfl⟩)
  | some current =>
    obtain ⟨few, ended, going⟩ := represents
    by_cases finished : current.Finished
    · rw [ended finished]
      refine .inr (.inr ⟨fun _ known accepts => ?_, rfl⟩)
      cases known
      exact accepts.1 finished
    · obtain ⟨remaining, known, left⟩ := going finished
      rw [known]
      dsimp only [CompletionState.advance]
      by_cases excess : remaining < part.completed
      · rw [if_pos excess]
        refine .inr (.inr ⟨fun _ known accepts => ?_, rfl⟩)
        cases known
        have fits := accepts.2
        rw [Fin.lt_def] at excess
        omega
      · rw [if_neg excess]
        rw [Fin.lt_def] at excess
        have accepts : current.Accepts part := ⟨finished, by omega⟩
        have total := current.total_push part
        by_cases done : remaining.saturatingSub part.completed.val = 0
        · have zero := congrArg Fin.val done
          rw [saturatingSub_val] at zero
          refine .inl ⟨current, rfl, accepts, ?_, ?_⟩
          · rw [total]
            have : remaining.val - part.completed.val = 0 := zero
            omega
          · simp only [done, decide_true, Lifetime.firstFailure_push]
        · refine .inr (.inl ⟨current, ⟨remaining.saturatingSub part.completed.val,
            (current.push part).firstFailure⟩, rfl, accepts, ?_, ?_, rfl, ?_⟩)
          · intro all
            refine done (Fin.ext ?_)
            rw [saturatingSub_val]
            show _ = 0
            omega
          · simp only [done, decide_false, Lifetime.firstFailure_push]
          · rw [saturatingSub_val, total]
            omega

theorem represents_step {probe : RawProbe} (nonzero : probe.requestId ≠ 0)
    (represents : Lifetime.Represents lifetime (states.lookup probe.requestId)) :
    Lifetime.Represents (Lifetime.follow lifetime probe)
      ((handleRawBlock states probe).1.lookup probe.requestId) := by
  unfold Lifetime.follow
  cases kind : probe.kind with
  | insert =>
    unfold handleRawBlock
    rw [if_neg nonzero, kind]
    exact represents
  | issue =>
    unfold handleRawBlock
    rw [if_neg nonzero, kind]
    refine ⟨Nat.zero_le _, fun finished => absurd rfl finished.1, fun _ => ⟨probe.bytes, ?_, rfl⟩⟩
    rw [lookup_insert_eq, if_pos rfl]
    rfl
  | complete =>
    rcases handleRawBlock_cases nonzero kind represents with
      ⟨current, rfl, accepts, all, handled⟩ |
      ⟨current, next, rfl, accepts, open_, handled, error, left⟩ | ⟨refused, handled⟩
    · rw [handled, map_some, if_pos accepts, lookup_erase_eq, if_pos rfl]
      refine ⟨all.le, fun _ => rfl, fun unfinished => absurd ⟨?_, all⟩ unfinished⟩
      exact append_ne_nil_of_right_ne_nil _ (cons_ne_nil _ _)
    · rw [handled, map_some, if_pos accepts, lookup_insert_eq, if_pos rfl]
      refine ⟨left ▸ Nat.le_add_left _ _, fun finished => absurd finished.2 open_, fun _ => ?_⟩
      exact ⟨next.remaining, by rw [← error], left⟩
    · rw [handled]
      cases lifetime with
      | none => exact represents
      | some current =>
        rw [map_some, if_neg (refused current rfl)]
        exact represents

end Parts

def rawStates (probes : List RawProbe) : Table U64 CompletionState :=
  run (fun states probe => (handleRawBlock states probe).1) ∅ probes

def forwarded (probes : List RawProbe) : List BlockDecoded :=
  collect (fun states probe => (handleRawBlock states probe).1)
    (fun states probe => (handleRawBlock states probe).2) ∅ probes

section Runs

variable {id : U64} {probes : List RawProbe}

theorem represents_run (nonzero : id ≠ 0) (own : ∀ probe ∈ probes, probe.requestId = id) :
    Lifetime.Represents (run Lifetime.follow none probes) ((rawStates probes).lookup id) := by
  induction probes using reverseRecOn with
  | nil => rfl
  | append_singleton history probe hypothesis =>
    have same := own probe mem_concat_self
    have before := hypothesis fun other member => own other (mem_append_left _ member)
    subst same
    unfold rawStates at before ⊢
    rw [run_snoc, run_snoc]
    exact represents_step nonzero before

theorem count_step (states : Table U64 CompletionState) {probe : RawProbe}
    (nonzero : probe.requestId ≠ 0) :
    (handleRawBlock states probe).2.toList.countP (·.kind = .complete) +
        ((handleRawBlock states probe).1.lookup probe.requestId).toList.length ≤
      (states.lookup probe.requestId).toList.length + if probe.kind = .issue then 1 else 0 := by
  unfold handleRawBlock
  rw [if_neg nonzero]
  cases kind : probe.kind with
  | insert => simp [RawProbe.decoded, kind]
  | issue => simp [RawProbe.decoded, kind]
  | complete =>
    cases known : states.lookup probe.requestId with
    | none => simp [known]
    | some state =>
      dsimp only
      split
      · simp
      · simp [RawProbe.decoded, kind]
      · simp [known]

theorem completions_le_issues (nonzero : id ≠ 0) (own : ∀ probe ∈ probes, probe.requestId = id) :
    (forwarded probes).countP (·.kind = .complete) +
        ((rawStates probes).lookup id).toList.length ≤
      probes.countP (·.kind = .issue) := by
  induction probes using reverseRecOn with
  | nil => exact le_rfl
  | append_singleton history probe hypothesis =>
    have same := own probe mem_concat_self
    have before := hypothesis fun other member => own other (mem_append_left _ member)
    subst same
    have now := count_step (rawStates history) nonzero
    unfold forwarded rawStates at before now ⊢
    rw [run_snoc, collect_snoc, countP_append, countP_append, countP_singleton]
    simp only [decide_eq_true_eq]
    omega

end Runs

/-- In every sequence of probes of one request, whose pointer is not null, a part of a completion
is processed as a completion exactly when it is accepted and the accepted parts since the last
issue add up to the bytes of the issue, with the status of the first of them that failed. A part
that has more than what is left changes nothing, and no more completions are processed than
requests were issued. -/
theorem raw_completions_are_accounted {id : U64} (nonzero : id ≠ 0) (probes : List RawProbe)
    (own : ∀ probe ∈ probes, probe.requestId = id) {part : RawProbe} (ownPart : part.requestId = id)
    (complete : part.kind = .complete) :
    (∀ decoded, (handleRawBlock (rawStates probes) part).2 = some decoded ↔
        ∃ lifetime, run Lifetime.follow none probes = some lifetime ∧ lifetime.Accepts part ∧
          (lifetime.push part).total = lifetime.issued.val ∧
          decoded = part.decoded (lifetime.push part).firstFailure) ∧
      (∀ lifetime, run Lifetime.follow none probes = some lifetime →
        lifetime.issued.val < lifetime.total + part.completed.val →
          handleRawBlock (rawStates probes) part = (rawStates probes, none)) ∧
      (forwarded probes).countP (·.kind = .complete) ≤ probes.countP (·.kind = .issue) := by
  have represents := represents_run nonzero own
  subst ownPart
  have few := completions_le_issues nonzero own
  rcases handleRawBlock_cases nonzero complete represents with
    ⟨current, known, accepts, all, handled⟩ | ⟨current, next, known, accepts, open_, handled, -⟩ |
    ⟨refused, handled⟩
  · refine ⟨fun decoded => ?_, fun lifetime same excess => ?_, Nat.le_of_add_right_le few⟩
    · rw [handled, known]
      constructor
      · rintro ⟨⟩
        exact ⟨current, rfl, accepts, all, rfl⟩
      · rintro ⟨lifetime, ⟨⟩, -, -, rfl⟩
        rfl
    · cases known.symm.trans same
      exact absurd accepts.2 (not_le.mpr excess)
  · refine ⟨fun decoded => ?_, fun lifetime same excess => ?_, Nat.le_of_add_right_le few⟩
    · rw [handled, known]
      refine ⟨fun none_ => (nomatch none_), ?_⟩
      rintro ⟨lifetime, ⟨⟩, -, all, -⟩
      exact absurd all open_
    · cases known.symm.trans same
      exact absurd accepts.2 (not_le.mpr excess)
  · refine ⟨fun decoded => ?_, fun _ _ _ => handled, Nat.le_of_add_right_le few⟩
    rw [handled]
    refine ⟨fun none_ => (nomatch none_), ?_⟩
    rintro ⟨lifetime, known, accepts, -⟩
    exact absurd accepts (refused lifetime known)

def rawProbe (kind : BlockProbeKind) (completed : U32) (rawStatus : U8) : RawProbe :=
  ⟨kind, 7, 0, 2048, 1024, 0, completed, rawStatus⟩

theorem raw_completion_of_two_parts :
    (handleRawBlock (rawStates [rawProbe .issue 0 0, rawProbe .complete 512 10])
      (rawProbe .complete 512 0)).2 = some ((rawProbe .complete 512 0).decoded (-5)) :=
  ((raw_completions_are_accounted (by decide) _ (by decide +kernel) rfl rfl).1 _).mpr
    ⟨⟨1024, [rawProbe .complete 512 10]⟩, by decide +kernel, by decide +kernel, by decide +kernel,
      by decide +kernel⟩

end EbpfStudio
