/-
This file proves that the extents the agent stores are where the moves have taken them.

A move takes sectors of one device to sectors of another, one by one. `MovedBy` describes what one
move makes of an extent, and `Traced` follows a stored extent back to a report along a chain of
moves that were observed after it. Refreshing and dropping keep this, and a translated copy adds one
move to the chain of its origin.
-/

import EbpfStudio.Agent.Extents

namespace EbpfStudio

open Expiry Run List F2fsExtentObservation

def ExtentEvent.image (place : U32 × Nat) (event : ExtentEvent) : Option (U32 × Nat) :=
  if (place.1 = event.fsDevice ∨ place.1 = event.device) ∧
      event.requestedBytes.val ≤ place.2 ∧
      place.2 < event.requestedBytes.val + event.sectors.val then
    some (event.device, event.sector.val + (place.2 - event.requestedBytes.val))
  else none

def imageUnder (chain : List ExtentEvent) (place : U32 × Nat) : Option (U32 × Nat) :=
  chain.foldlM ExtentEvent.image place

theorem imageUnder_snoc (chain : List ExtentEvent) (event : ExtentEvent) (place : U32 × Nat) :
    imageUnder (chain ++ [event]) place = (imageUnder chain place).bind event.image :=
  foldlM_snoc ExtentEvent.image place chain event

namespace F2fsExtentObservation

def EndsInRange (extent : F2fsExtentObservation) : Prop :=
  extent.sector.val + extent.sectors.val < 2 ^ 64

/-- What a move makes of an extent: the sectors of a part of it, each taken to its new place
within the range of the move. -/
structure MovedBy (event : ExtentEvent) (extent moved : F2fsExtentObservation) (skipped : Nat) :
    Prop where
  device : moved.device = event.device
  fsDevice : moved.fsDevice = extent.fsDevice
  inode : moved.inode = extent.inode
  some_ : 0 < moved.sectors.val
  part : skipped + moved.sectors.val ≤ extent.sectors.val
  after : event.sector.val ≤ moved.sector.val
  before : moved.sector.val + moved.sectors.val ≤ event.sector.val + event.sectors.val
  image : ∀ index < moved.sectors.val,
    event.image (extent.device, extent.sector.val + (skipped + index)) =
      some (moved.device, moved.sector.val + index)

section Translate

variable {event : ExtentEvent} {extent moved : F2fsExtentObservation}

theorem translate_eq_some (ends : extent.EndsInRange)
    (target : event.sector.val + event.sectors.val < 2 ^ 64)
    (source : event.requestedBytes.val + event.sectors.val < 2 ^ 64)
    (translated : extent.translate event = some moved) :
    (extent.device = event.fsDevice ∨ extent.device = event.device) ∧
      extent.sector.val < event.requestedBytes.val + event.sectors.val ∧
      event.requestedBytes.val < extent.sector.val + extent.sectors.val ∧
      moved.device = event.device ∧ moved.fsDevice = extent.fsDevice ∧
      moved.inode = extent.inode ∧
      moved.sector.val =
        event.sector.val + (max extent.sector.val event.requestedBytes.val -
          event.requestedBytes.val) ∧
      moved.sectors.val =
        min (extent.sector.val + extent.sectors.val)
          (event.requestedBytes.val + event.sectors.val) -
            max extent.sector.val event.requestedBytes.val := by
  unfold translate endSector at translated
  rw [Option.ite_none_left_eq_some, Option.some.injEq] at translated
  obtain ⟨overlap, same⟩ := translated
  simp only [Bool.or_eq_true, Bool.not_eq_true', Bool.or_eq_false_iff, decide_eq_false_iff_not,
    decide_eq_true_eq, not_or, not_and_or, not_not, Fin.le_def, not_le,
    Word.saturatingAdd_of_lt _ _ source, Word.saturatingAdd_of_lt _ _ ends] at overlap
  obtain ⟨⟨⟨device, -⟩, starts⟩, goesOn⟩ := overlap
  refine ⟨device, starts, goesOn, ?_⟩
  subst same
  refine ⟨rfl, rfl, rfl, ?_, ?_⟩
  · rw [Word.saturatingAdd_of_lt, Fin.coe_max]
    rw [Fin.coe_max]
    omega
  · have length := event.sectors.isLt
    rw [Fin.coe_max, Fin.coe_min, Word.saturatingAdd_of_lt _ _ source,
      Word.saturatingAdd_of_lt _ _ ends]
    unfold Word.tryFrom
    rw [dif_pos (by omega)]
    rfl

end Translate

end F2fsExtentObservation

namespace F2fsExtentAttributor

def Input.EndsInRange : Input → Prop
  | .extent event => event.sector.val + event.sectors.val < 2 ^ 64
  | .remap event => event.sector.val + event.sectors.val < 2 ^ 64 ∧
      event.requestedBytes.val + event.sectors.val < 2 ^ 64
  | .fileIo _ | .issue _ => True

def Input.move? : Input → Option ExtentEvent
  | .remap event => if event.kind = kindBioRemap then some event else none
  | _ => none

/-- The filesystem reported an extent of the same file, and a chain of moves observed after it
takes the sectors of a part of it to those of this extent. -/
def Traced (history : List Input) (extent : F2fsExtentObservation) : Prop :=
  ∃ before raw after chain offset, history = before ++ .extent raw :: after ∧
    raw.kind = kindFileExtent ∧ chain.Sublist (after.filterMap Input.move?) ∧
    extent.inode = raw.inode ∧ extent.fsDevice = raw.fsDevice ∧
    offset + extent.sectors.val ≤ raw.sectors.val ∧
    ∀ index < extent.sectors.val,
      imageUnder chain (raw.device, raw.sector.val + (offset + index)) =
        some (extent.device, extent.sector.val + index)

structure Located (history : List Input) (extent : F2fsExtentObservation) : Prop where
  traced : Traced history extent
  ends : extent.EndsInRange
  some_ : 0 < extent.sectors.val

section Located

variable {history : List Input} {extent : F2fsExtentObservation}

theorem Traced.later (traced : Traced history extent) (input : Input) :
    Traced (history ++ [input]) extent := by
  obtain ⟨before, raw, after, chain, offset, split, kind, observed, rest⟩ := traced
  refine ⟨before, raw, after ++ [input], chain, offset, append_eq_of_split split [input], kind,
    ?_, rest⟩
  rw [filterMap_append]
  exact observed.trans (sublist_append_left _ _)

theorem Located.later (located : Located history extent) (input : Input) :
    Located (history ++ [input]) extent :=
  ⟨located.traced.later input, located.ends, located.some_⟩

theorem Located.refresh (located : Located history extent) (event : ExtentEvent) :
    Located history (extent.refresh event) :=
  ⟨located.traced, located.ends, located.some_⟩

theorem located_ofEvent (history : List Input) {event : ExtentEvent}
    (kind : event.kind = kindFileExtent) (some_ : event.sectors ≠ 0)
    (ends : (Input.extent event).EndsInRange) :
    Located (history ++ [.extent event]) (.ofEvent event) where
  traced := by
    refine ⟨history, event, [], [], 0, rfl, kind, nil_sublist _, rfl, rfl, ?_, ?_⟩
    · exact (Nat.zero_add _).le
    · intro index _
      rw [Nat.zero_add]
      rfl
  ends := ends
  some_ := Nat.pos_of_ne_zero fun none_ => some_ (Fin.ext none_)

theorem Located.move (located : Located history extent) {event : ExtentEvent}
    {moved : F2fsExtentObservation} {skipped : Nat} (kind : event.kind = kindBioRemap)
    (ends : (Input.remap event).EndsInRange)
    (movedBy : MovedBy event extent moved skipped) :
    Located (history ++ [.remap event]) moved where
  traced := by
    obtain ⟨before, raw, after, chain, offset, split, reported, observed, inode, fsDevice, part,
      image⟩ := located.traced
    refine ⟨before, raw, after ++ [.remap event], chain ++ [event], offset + skipped,
      append_eq_of_split split _, reported, ?_, movedBy.inode.trans inode,
      movedBy.fsDevice.trans fsDevice, ?_, fun index inside => ?_⟩
    · have moves : [Input.remap event].filterMap Input.move? = [event] :=
        filterMap_cons_some (if_pos kind)
      rw [filterMap_append, moves]
      exact observed.append_right _
    · have within := movedBy.part
      omega
    · have within := movedBy.part
      rw [imageUnder_snoc, Nat.add_assoc offset, image (skipped + index) (by omega),
        Option.bind_some]
      exact movedBy.image index inside
  ends := by
    have inside := movedBy.before
    have target := ends.1
    show moved.sector.val + moved.sectors.val < 2 ^ 64
    omega
  some_ := movedBy.some_

end Located

structure Stored (history : List Input) (attributor : F2fsExtentAttributor) : Prop where
  located : ∀ extent ∈ attributor.extents, Located history extent
  few : attributor.extents.length ≤ maxExtents

section Stored

variable {history : List Input} {attributor : F2fsExtentAttributor}

section

variable (stored : Stored history attributor)

include stored

theorem Stored.later (input : Input) : Stored (history ++ [input]) attributor :=
  ⟨fun extent member => (stored.located extent member).later input, stored.few⟩

theorem Stored.prune (nowNs : U64) : Stored history (attributor.prune nowNs) where
  located extent member := stored.located extent ((List.dropWhile_sublist _).subset member)
  few := (dropWhile_sublist _).length_le.trans stored.few

variable {event : ExtentEvent}

theorem Stored.observeRawExtent (ends : (Input.extent event).EndsInRange) :
    Stored (history ++ [.extent event]) (attributor.observeRawExtent event) := by
  unfold F2fsExtentAttributor.observeRawExtent
  have pruned := (stored.prune event.tsNs).later (.extent event)
  split
  · exact stored.later _
  rename_i proper
  simp only [Bool.or_eq_true, decide_eq_true_eq, not_or, not_not] at proper
  dsimp only
  split
  · rename_i refreshed found
    obtain ⟨before, extent, after, split, -, -, rfl⟩ := modifyLast?_eq_some found
    have among : ∀ other ∈ before ++ extent :: after,
        Located (history ++ [.extent event]) other := by
      rw [← split]
      exact pruned.located
    refine ⟨fun other member => ?_, ?_⟩
    · rcases mem_append.mp member with old | later
      · exact among other (mem_append_left _ old)
      · rcases mem_cons.mp later with rfl | old
        · exact (among extent (by simp)).refresh event
        · exact among other (by simp [old])
    · have few := pruned.few
      rw [split] at few
      simpa using few
  · refine ⟨fun other member => ?_, length_pushBounded_le (by decide) pruned.few _⟩
    have among := (pushBounded_sublist _ _ _).subset member
    rcases mem_append.mp among with old | new
    · exact pruned.located other old
    · rw [mem_singleton.mp new]
      exact located_ofEvent history proper.1 proper.2 ends

theorem Stored.translated (ends : (Input.remap event).EndsInRange) (some_ : event.sectors ≠ 0)
    {moved : F2fsExtentObservation}
    (member : moved ∈ attributor.extents.filterMap (·.translate event)) :
    ∃ extent ∈ attributor.extents, ∃ skipped,
      MovedBy event extent moved skipped := by
  obtain ⟨extent, among, translated⟩ := mem_filterMap.mp member
  have located := stored.located extent among
  have long := located.some_
  have moves : 0 < event.sectors.val := Nat.pos_of_ne_zero fun none_ => some_ (Fin.ext none_)
  obtain ⟨matches_, starts, goesOn, device, fsDevice, inode, sector, sectors⟩ :=
    translate_eq_some located.ends ends.1 ends.2 translated
  refine ⟨extent, among, event.requestedBytes.val - extent.sector.val, device, fsDevice, inode,
    ?_, ?_, ?_, ?_, fun index inside => ?_⟩
  · omega
  · omega
  · omega
  · omega
  · unfold ExtentEvent.image
    rw [if_pos ⟨matches_, by omega, by omega⟩, device]
    refine congrArg some (Prod.ext rfl ?_)
    omega

theorem Stored.observeBioRemap (ends : (Input.remap event).EndsInRange) :
    Stored (history ++ [.remap event]) (attributor.observeBioRemap event) := by
  unfold F2fsExtentAttributor.observeBioRemap
  have pruned := stored.prune event.tsNs
  split
  · exact stored.later _
  rename_i proper
  simp only [Bool.or_eq_true, decide_eq_true_eq, not_or, not_not] at proper
  refine ⟨fun other member => ?_, length_foldl_pushBounded_le (by decide) pruned.few _⟩
  rcases mem_append.mp ((foldl_pushBounded_sublist _ _ _).subset member) with old | new
  · exact (pruned.located other old).later _
  · obtain ⟨extent, among, skipped, movedBy⟩ := pruned.translated ends proper.2 new
    exact (pruned.located extent among).move proper.1 ends movedBy

end

end Stored

theorem stored_run {history : List Input} (ends : ∀ input ∈ history, input.EndsInRange) :
    Stored history (run step {} history) := by
  induction history using reverseRecOn with
  | nil =>
    refine ⟨fun extent member => ?_, Nat.zero_le _⟩
    cases member
  | append_singleton history input hypothesis =>
    have stored := hypothesis fun other member =>
      ends other (mem_append_left _ member)
    have last := ends input (mem_append_right _ (mem_singleton_self input))
    rw [run_snoc]
    cases input with
    | extent event => exact stored.observeRawExtent last
    | remap event => exact stored.observeBioRemap last
    | fileIo file =>
      show Stored _ ((run step {} history).observeFileIo file)
      unfold observeFileIo
      split
      · exact ⟨(stored.later _).located, stored.few⟩
      · exact stored.later _
    | issue issue => exact (stored.prune issue.tsNs).later _

/-- In every run whose ranges end below the last sector number, every stored extent is a part of a
reported extent of the same file, taken sector by sector along a chain of moves that were observed
after it. -/
theorem remap_translation_is_exact (history : List Input)
    (ends : ∀ input ∈ history, input.EndsInRange) :
    let attributor := run step {} history
    (∀ extent ∈ attributor.extents, 0 < extent.sectors.val ∧ Traced history extent) ∧
      attributor.extents.length ≤ maxExtents ∧
      ∀ event : ExtentEvent, (Input.remap event).EndsInRange → event.sectors ≠ 0 →
        ∀ moved ∈ (attributor.prune event.tsNs).extents.filterMap (·.translate event),
          event.sector.val ≤ moved.sector.val ∧
            moved.sector.val + moved.sectors.val ≤ event.sector.val + event.sectors.val := by
  intro attributor
  have stored := stored_run ends
  refine ⟨fun extent member => ?_, stored.few, fun event range some_ moved member => ?_⟩
  · have located := stored.located extent member
    exact ⟨located.some_, located.traced⟩
  · obtain ⟨extent, -, skipped, movedBy⟩ :=
      (stored.prune event.tsNs).translated range some_ member
    exact ⟨movedBy.after, movedBy.before⟩

/-- The move of eight sectors from sector 2052 of the sample device to sector 500 of another. -/
def readRemap : ExtentEvent where
  tsNs := 2
  sector := 500
  requestedBytes := 2052
  originId := 0
  inode := 0
  device := encodeDevice (8, 1)
  fsDevice := encodeDevice (8, 0)
  sectors := 8
  pid := 0
  tid := 0
  kind := kindBioRemap

theorem remap_translation_of_half :
    let history := [Input.extent (readExtent 1 2048 42), .remap readRemap]
    (run step {} history).extents.map (fun extent => (extent.sector, extent.sectors)) =
        [(2048, 8), (500, 4)] ∧
      ∀ extent ∈ (run step {} history).extents, Traced history extent := by
  intro history
  have ends : ∀ input ∈ history, input.EndsInRange := by
    intro input member
    rcases mem_cons.mp member with rfl | later
    · show 2048 + 8 < 2 ^ 64
      decide
    · rw [mem_singleton.mp later]
      show 500 + 8 < 2 ^ 64 ∧ 2052 + 8 < 2 ^ 64
      decide
  refine ⟨by decide +kernel, fun extent member => ?_⟩
  exact ((remap_translation_is_exact history ends).1 extent member).2

end F2fsExtentAttributor

end EbpfStudio
