/-
This file proves what is decoded of a trace file that was cut.

A well-formed packet is read back whatever follows it. A packet that is cut inside is refused. So
the decoder is a scan in the sense of `Library/Frames`, which says what is read of a cut file. The
events get their numbers while the packets are accepted, and each step of this keeps the numbers in
order (`Intact`).
-/

import EbpfStudio.Desktop.TraceDecoding
import EbpfStudio.Library.Base128

namespace EbpfStudio

open Base128 Frames Program List Word Nat

namespace Wire

def placesFrom (place : Nat) : List Nat := (List.range' place (10 - place)).map (7 * ·)

variable {place : Nat}

theorem placesFrom_eq_cons (below : place < 10) :
    placesFrom place = 7 * place :: placesFrom (place + 1) := by
  unfold placesFrom
  rw [show 10 - place = (10 - (place + 1)) + 1 by omega, range'_succ, map_cons]

theorem varint_eq : varint = varintAt (placesFrom 0) 0 := rfl

variable {value : U64}

theorem varintAt_more (below : place < 9) {byte : UInt8} (continues : 128 ≤ byte.toNat)
    (rest : List UInt8) :
    varintAt (placesFrom place) value (byte :: rest) =
      varintAt (placesFrom (place + 1))
        (Word.ofNat 64 (value.val ||| (byte.toNat &&& 127) <<< (7 * place))) rest := by
  rw [placesFrom_eq_cons (by omega), varintAt, if_neg (by omega), if_neg]
  rw [UInt8.lt_iff_toNat_lt]
  exact not_lt.mpr continues

theorem two_pow_next (place : Nat) : 2 ^ (7 * (place + 1)) = 128 * 2 ^ (7 * place) := by
  rw [Nat.mul_add, Nat.pow_add, Nat.mul_comm]

theorem ofNat_group (placed : place < 10) (below : value.val < 2 ^ (7 * place)) {byte : UInt8}
    (small : ¬ (7 * place = 63 ∧ 1 < byte)) :
    (Word.ofNat 64 (value.val ||| (byte.toNat &&& 127) <<< (7 * place))).val =
      value.val + byte.toNat % 128 * 2 ^ (7 * place) := by
  rw [or_group below]
  refine Nat.mod_eq_of_lt ?_
  by_cases last : place = 9
  · subst last
    have one : byte.toNat ≤ 1 := not_lt.mp fun large =>
      small ⟨rfl, UInt8.lt_iff_toNat_lt.mpr large⟩
    omega
  · have power : 2 ^ (7 * place) ≤ 2 ^ 56 := Nat.pow_le_pow_right Nat.two_pos (by omega)
    have group : byte.toNat % 128 * 2 ^ (7 * place) ≤ 127 * 2 ^ (7 * place) :=
      Nat.mul_le_mul_right _ (by omega)
    omega

theorem group_below (below : value.val < 2 ^ (7 * place)) (byte : UInt8) :
    value.val + byte.toNat % 128 * 2 ^ (7 * place) < 2 ^ (7 * (place + 1)) := by
  have group : byte.toNat % 128 * 2 ^ (7 * place) ≤ 127 * 2 ^ (7 * place) :=
    mul_le_mul_right _ (by omega)
  rw [two_pow_next]
  omega

theorem add_groups (value byte number place : Nat) :
    value + byte * 2 ^ (7 * place) + number * 2 ^ (7 * (place + 1)) =
      value + (byte + 128 * number) * 2 ^ (7 * place) := by
  rw [two_pow_next]
  ring

theorem varintAt_encodes {bytes : List UInt8} {number : Nat} (encodes : Encodes bytes number)
    (short : place + bytes.length ≤ 10) (below : value.val < 2 ^ (7 * place))
    (fits : value.val + number * 2 ^ (7 * place) < 2 ^ 64) (rest : List UInt8) :
    varintAt (placesFrom place) value (bytes ++ rest) =
      .ok (⟨value.val + number * 2 ^ (7 * place), fits⟩, rest) := by
  induction encodes generalizing place value with
  | @last byte ends =>
    rw [length_singleton] at short
    have small : ¬ (7 * place = 63 ∧ 1 < byte) := by
      rintro ⟨top, large⟩
      rw [top] at fits
      have two : 1 < byte.toNat := UInt8.lt_iff_toNat_lt.mp large
      omega
    have group := ofNat_group (by omega) below small
    rw [mod_eq_of_lt ends] at group
    rw [placesFrom_eq_cons (by omega), singleton_append, varintAt, if_neg small,
      if_pos (UInt8.lt_iff_toNat_lt.mpr ends)]
    refine congrArg (fun read : U64 => Except.ok (read, rest)) (Fin.ext ?_)
    exact group
  | @more byte others number continues encodes hypothesis =>
    have length := length_pos_of_ne_nil encodes.ne_nil
    rw [length_cons] at short
    have group := @ofNat_group place value (by omega) below byte (by omega)
    have next := group_below below byte
    rw [← group] at next
    have sum := add_groups value.val (byte.toNat % 128) number place
    rw [← group] at sum
    rw [cons_append, varintAt_more (by omega) continues,
      hypothesis (by omega) next (by rw [sum]; exact fits)]
    simp only [sum]

/-- What is read is the number that the bytes taken encode. -/
theorem encodes_of_varintAt {data rest : List UInt8} {result : U64} (placed : place ≤ 10)
    (below : value.val < 2 ^ (7 * place))
    (taken : varintAt (placesFrom place) value data = .ok (result, rest)) :
    ∃ bytes number, Encodes bytes number ∧ place + bytes.length ≤ 10 ∧ data = bytes ++ rest ∧
      result.val = value.val + number * 2 ^ (7 * place) := by
  induction data generalizing place value with
  | nil =>
    rcases placed.eq_or_lt with rfl | under
    · cases taken
    · rw [placesFrom_eq_cons under] at taken
      cases taken
  | cons byte others hypothesis =>
    rcases placed.eq_or_lt with rfl | under
    · cases taken
    rw [placesFrom_eq_cons under, varintAt] at taken
    split at taken
    case isTrue => cases taken
    case isFalse small =>
      have group := ofNat_group under below small
      dsimp only at taken
      split at taken
      case isTrue ends =>
        cases taken
        have last : byte.toNat < 128 := UInt8.lt_iff_toNat_lt.mp ends
        rw [mod_eq_of_lt last] at group
        exact ⟨[byte], byte.toNat, .last last, under, rfl, group⟩
      case isFalse continues =>
        obtain ⟨bytes, number, encodes, short, rfl, sum⟩ := hypothesis under
          (group.trans_lt (group_below below byte)) taken
        have going : 128 ≤ byte.toNat := not_lt.mp fun ends =>
          continues (UInt8.lt_iff_toNat_lt.mpr ends)
        refine ⟨byte :: bytes, _, .more going encodes, by rw [length_cons]; omega, rfl, ?_⟩
        rw [sum, group, add_groups]

theorem decodes_varint : Decodes varint fun bytes value =>
    Encodes bytes value.val ∧ bytes.length ≤ 10 := by
  intro data value rest
  rw [varint_eq]
  constructor
  · intro taken
    obtain ⟨bytes, number, encodes, short, split, same⟩ :=
      @encodes_of_varintAt 0 0 data rest value (by decide) one_pos taken
    have equal : value.val = number := by
      rw [same, mul_zero, pow_zero, mul_one]
      exact zero_add number
    rw [zero_add] at short
    exact ⟨bytes, ⟨equal ▸ encodes, short⟩, split⟩
  · rintro ⟨bytes, ⟨encodes, short⟩, rfl⟩
    have same : (0 : U64).val + value.val * 2 ^ (7 * 0) = value.val := by
      rw [mul_zero, pow_zero, mul_one]
      exact zero_add _
    refine (varintAt_encodes encodes (by rwa [zero_add]) one_pos (same.trans_lt value.isLt)
      rest).trans ?_
    exact congrArg (fun read : U64 => Except.ok (read, rest)) (Fin.ext same)

theorem exists_varint_error {part : List UInt8} (going : ∀ byte ∈ part, 128 ≤ byte.toNat) :
    ∃ error, varint part = .error error := by
  cases read : varint part with
  | error error => exact ⟨error, rfl⟩
  | ok result =>
    obtain ⟨bytes, ⟨encodes, -⟩, rfl⟩ := (decodes_varint _ _ _).mp read
    obtain ⟨byte, member, ends⟩ := encodes.exists_last
    exact absurd (going byte (mem_append_left _ member)) (not_le.mpr ends)

end Wire

structure TracePacket where
  lengthBytes : List UInt8
  payload : List UInt8
  encodes : Encodes lengthBytes payload.length
  short : lengthBytes.length ≤ 10
  small : payload.length ≤ maxPacket

def TracePacket.bytes (packet : TracePacket) : List UInt8 :=
  0x0a :: (packet.lengthBytes ++ packet.payload)

namespace TracePacket

open Wire DecodedTrace

variable (packet : TracePacket)

theorem varint_lengthBytes (rest : List UInt8) :
    ∃ length : U64, length.val = packet.payload.length ∧
      varint (packet.lengthBytes ++ rest) = .ok (length, rest) := by
  have small := packet.small
  have fits : packet.payload.length < 2 ^ 64 := by
    simp only [maxPacket] at small
    omega
  exact ⟨⟨_, fits⟩, rfl, (decodes_varint _ _ _).mpr
    ⟨packet.lengthBytes, ⟨packet.encodes, packet.short⟩, rfl⟩⟩

theorem readPacket_bytes (rest : List UInt8) :
    readPacket (packet.bytes ++ rest) = .ok (packet.payload, rest) := by
  obtain ⟨length, same, reads⟩ := packet.varint_lengthBytes (packet.payload ++ rest)
  show (varint (packet.lengthBytes ++ packet.payload ++ rest)).bind _ = _
  rw [append_assoc, reads]
  show (if _ then _ else if _ then _ else _) = _
  rw [if_neg (not_lt.mpr (same ▸ packet.small)), if_pos (by rw [same, length_append]; omega),
    same, take_left, drop_left]
  rfl

variable {part : List UInt8}

theorem exists_error_in_length (beginning : part <+: packet.lengthBytes)
    (shorter : part.length < packet.lengthBytes.length) :
    ∃ error, readPacket (0x0a :: part) = .error error := by
  obtain ⟨-, going⟩ := packet.encodes.continues_of_proper beginning fun same =>
    absurd (congrArg length same) shorter.ne
  obtain ⟨error, refused⟩ := exists_varint_error going
  refine ⟨error, ?_⟩
  show (varint part).bind _ = _
  rw [refused]
  rfl

theorem exists_error_in_payload (shorter : part.length < packet.payload.length) :
    ∃ error, readPacket (0x0a :: (packet.lengthBytes ++ part)) = .error error := by
  obtain ⟨length, same, reads⟩ := packet.varint_lengthBytes part
  refine ⟨.unexpectedEof, ?_⟩
  show (varint (packet.lengthBytes ++ part)).bind _ = _
  rw [reads]
  show (if _ then _ else if _ then _ else _) = _
  rw [if_neg (not_lt.mpr (same ▸ packet.small)), if_neg (by rw [same]; exact not_le.mpr shorter)]

theorem exists_readPacket_error (beginning : part <+: packet.bytes) (some_ : part ≠ [])
    (proper : part ≠ packet.bytes) : ∃ error, readPacket part = .error error := by
  rcases prefix_cons_iff.mp beginning with empty | ⟨inner, rfl, within⟩
  · exact absurd empty some_
  by_cases inLength : inner.length < packet.lengthBytes.length
  · refine packet.exists_error_in_length ?_ inLength
    exact prefix_of_prefix_length_le within (prefix_append _ _) inLength.le
  · obtain ⟨rest, rfl⟩ := prefix_of_prefix_length_le (prefix_append _ _) within
      (not_lt.mp inLength)
    refine packet.exists_error_in_payload ?_
    have inPayload := (prefix_append_right_inj _).mp within
    refine lt_of_le_of_ne inPayload.length_le fun length => proper ?_
    rw [inPayload.eq_of_length length]
    rfl

theorem framing : Framing readPacket TracePacket.bytes TracePacket.payload where
  nonempty _ := cons_ne_nil _ _
  reads := readPacket_bytes
  cuts packet _ := packet.exists_readPacket_error

end TracePacket

namespace DecodedTrace

open Wire

theorem exists_bytes_of_readPacket (data payload rest : List UInt8)
    (taken : readPacket data = .ok (payload, rest)) :
    ∃ packet : TracePacket, packet.bytes ++ rest = data := by
  cases data with
  | nil => cases taken
  | cons first others =>
    replace taken : (if first ≠ 0x0a then _ else (varint others).bind _) =
      Except.ok (payload, rest) := taken
    split at taken
    · cases taken
    · rename_i root
      obtain ⟨length, found, later⟩ := exists_of_bind_eq_ok taken
      obtain ⟨lengthBytes, ⟨encodes, short⟩, rfl⟩ := (decodes_varint _ _ _).mp found
      dsimp only at later
      split at later
      · cases later
      · split at later <;> cases later
        have same := length_take_of_le ‹length.1.val ≤ length.2.length›
        refine ⟨⟨lengthBytes, _, same.symm ▸ encodes, short, same.trans_le (not_lt.mp ‹_›)⟩, ?_⟩
        rw [TracePacket.bytes, cons_append, append_assoc, take_append_drop, not_not.mp root]

/-- A trace that is not marked as truncated, with its events numbered from one. -/
structure Intact (trace : DecodedTrace) : Prop where
  whole : trace.quality.truncated = false
  numbered : trace.events.map (·.recordId.val) = List.range' 1 trace.events.length
  few : trace.events.length ≤ maxEvents

theorem truncated_diagnostic (quality : TraceQuality) (message : String) :
    (quality.diagnostic message).truncated = quality.truncated := by
  unfold TraceQuality.diagnostic
  split <;> rfl

section Keeping

theorem keeps_modifyQuality {change : TraceQuality → TraceQuality}
    (same : ∀ quality, (change quality).truncated = quality.truncated) :
    Keeps Intact (modifyQuality change) :=
  ensures_modify fun trace intact =>
    ⟨(same trace.quality).trans intact.whole, intact.numbered, intact.few⟩

theorem keeps_parseError (message : String) : Keeps Intact (parseError message) :=
  keeps_modifyQuality fun _ => truncated_diagnostic _ _

theorem keeps_limitProjection : Keeps Intact limitProjection := keeps_modifyQuality fun _ => rfl

theorem keeps_pushWait (wait : SchedulerIoWait) : Keeps Intact (pushWait wait) := by
  refine keeps_bind (fun _ intact => intact) fun trace => ?_
  split
  · exact ensures_modify fun _ intact => ⟨intact.whole, intact.numbered, intact.few⟩
  · exact keeps_limitProjection

theorem keeps_genericEvent (event : List Field) (cpu : Option U32) (clock : U32)
    (data : List UInt8) : Keeps Intact (genericEvent event cpu clock data) := by
  refine keeps_bind (keeps_lift _) fun wait => ?_
  cases wait with
  | none => exact keeps_pure _
  | some wait => exact keeps_pushWait wait

theorem recordId_blockEvent {event : List Field} {cpu : Option U32} {clock : U32}
    {kind : BlockKind} {recordId : U64} {payload : List UInt8} {block : BlockEvent}
    (decoded : blockEvent event cpu clock kind recordId payload = .ok block) :
    block.recordId = recordId := by
  obtain ⟨fields, -, decoded⟩ := exists_of_bind_eq_ok decoded
  obtain ⟨count, -, decoded⟩ := exists_of_bind_eq_ok decoded
  obtain ⟨sectors, -, decoded⟩ := exists_of_bind_eq_ok decoded
  obtain ⟨timestamp, -, decoded⟩ := exists_of_bind_eq_ok decoded
  obtain ⟨device, -, decoded⟩ := exists_of_bind_eq_ok decoded
  obtain ⟨sector, -, decoded⟩ := exists_of_bind_eq_ok decoded
  obtain ⟨bytes, -, decoded⟩ := exists_of_bind_eq_ok decoded
  obtain ⟨rwbs, -, decoded⟩ := exists_of_bind_eq_ok decoded
  cases decoded
  rfl

theorem keeps_pushBlock (event : List Field) (cpu : Option U32) (clock : U32) (kind : BlockKind)
    (payload : List UInt8) : Keeps Intact (pushBlock event cpu clock kind payload) := by
  refine ensures_get_bind fun trace => ?_
  split
  · exact fun state known => keeps_limitProjection state known.2
  · rename_i room
    refine ensures_lift_bind (fun state known => known.2) fun block decoded => ?_
    refine ensures_modify ?_
    rintro state ⟨rfl, intact⟩
    have few := not_le.mp room
    have number : block.recordId.val = state.events.length + 1 := by
      rw [recordId_blockEvent decoded]
      refine mod_eq_of_lt ?_
      unfold maxEvents at few
      omega
    refine ⟨intact.whole, ?_, ?_⟩
    · rw [map_append, intact.numbered, map_singleton, number, length_append,
        length_singleton, range'_1_concat, add_comm 1]
    · rw [length_append]
      exact few

theorem keeps_ftraceEvent (cpu : Option U32) (clock : U32) (raw : List UInt8) :
    Keeps Intact (ftraceEvent cpu clock raw) := by
  refine keeps_bind (keeps_lift _) fun event => ?_
  refine keeps_bind ?_ fun _ => ?_
  · unfold schedulerSample
    split
    · exact keeps_orElse (keeps_genericEvent _ _ _ _) fun error => keeps_parseError _
    · exact keeps_pure _
  · refine keeps_forM fun entry => ?_
    dsimp only
    split
    · exact keeps_pushBlock _ _ _ _ _
    · exact keeps_pure _

variable (data : List UInt8)

theorem keeps_bundle : Keeps Intact (bundle data) := by
  refine keeps_bind (keeps_lift _) fun fields => ?_
  refine keeps_bind (keeps_modifyQuality fun _ => rfl) fun _ => ?_
  exact keeps_forM fun raw => keeps_ftraceEvent _ _ raw

theorem keeps_pushProcesses (snapshotNs : Option U64) (rows : List (Bool × List UInt8)) :
    Keeps Intact (pushProcesses snapshotNs rows) := by
  induction rows with
  | nil => exact keeps_pure _
  | cons row rest hypothesis =>
    refine keeps_bind (fun _ intact => intact) fun trace => ?_
    split
    · exact keeps_limitProjection
    · refine keeps_bind (keeps_lift _) fun process => ?_
      refine keeps_bind ?_ fun _ => hypothesis
      exact ensures_modify fun _ intact => ⟨intact.whole, intact.numbered, intact.few⟩

theorem keeps_ftraceStats : Keeps Intact (ftraceStats data) := by
  refine keeps_bind (keeps_lift _) fun fields => ?_
  refine keeps_bind (keeps_modifyQuality fun _ => rfl) fun _ => ?_
  refine keeps_forM fun raw => ?_
  refine keeps_bind (keeps_lift _) fun cpuFields => ?_
  exact keeps_bind (keeps_lift _) fun cpu => keeps_modifyQuality fun _ => rfl

theorem keeps_serviceStats : Keeps Intact (serviceStats data) := by
  refine keeps_bind (keeps_lift _) fun stats => ?_
  refine keeps_bind (keeps_modifyQuality fun _ => rfl) fun _ => ?_
  refine keeps_forM fun buffer => ?_
  exact keeps_bind (keeps_lift _) fun fields => keeps_modifyQuality fun _ => rfl

theorem keeps_packet : Keeps Intact (packet data) := by
  refine keeps_bind (keeps_lift _) fun fields => ?_
  refine keeps_bind (keeps_forM keeps_bundle) fun _ => ?_
  refine keeps_bind (keeps_forM fun tree => ?_) fun _ => ?_
  · exact keeps_bind (keeps_lift _) fun rows => keeps_pushProcesses _ _
  refine keeps_bind (keeps_forM keeps_ftraceStats) fun _ => ?_
  refine keeps_bind (keeps_forM keeps_serviceStats) fun _ => ?_
  split
  · exact keeps_parseError _
  · exact keeps_pure _

end Keeping

theorem Intact.acceptPacket {trace : DecodedTrace} (intact : trace.Intact) (data : List UInt8) :
    (acceptPacket trace data).Intact :=
  keeps_orElse (keeps_packet data) (fun error => keeps_parseError error.message) _
    ⟨intact.whole, intact.numbered, intact.few⟩

theorem intact_foldl (packets : List TracePacket) :
    Intact (packets.foldl (fun trace packet => trace.acceptPacket packet.payload) {}) := by
  induction packets using reverseRecOn with
  | nil => exact ⟨rfl, rfl, zero_le _⟩
  | append_singleton packets packet hypothesis =>
    rw [foldl_append]
    exact hypothesis.acceptPacket packet.payload

theorem nodup_recordId {events : List BlockEvent}
    (numbered : events.map (·.recordId.val) = range' 1 events.length) :
    (events.map (·.recordId)).Nodup := by
  refine Nodup.of_map Fin.val ?_
  rw [map_map]
  exact numbered ▸ nodup_range'

open TracePacket in
/-- A file of packets that is cut anywhere decodes to the events and waits of the packets that
are complete in it. It is marked as truncated if and only if the cut is inside a packet, and no
two events have the same number. -/
theorem decode_cut (packets : List TracePacket) (cut : Nat) :
    ∃ trace whole, decode ((stream TracePacket.bytes packets).take cut) = some trace ∧
      decode (stream TracePacket.bytes (contained TracePacket.bytes packets cut)) = some whole ∧
      trace.events = whole.events ∧ trace.schedulerWaits = whole.schedulerWaits ∧
      (trace.quality.truncated = true ↔ CutInside TracePacket.bytes packets cut) ∧
      (trace.events.map (·.recordId)).Nodup := by
  let taken : DecodedTrace := (contained TracePacket.bytes packets cut).foldl
    (fun trace packet => trace.acceptPacket packet.payload) {}
  have intact : taken.Intact := intact_foldl _
  have distinct : (taken.sorted.events.map (·.recordId)).Nodup :=
    (((perm_insertionSort _ _).map _).nodup_iff).mpr (nodup_recordId intact.numbered)
  have whole : decode (stream TracePacket.bytes (contained TracePacket.bytes packets cut)) =
      some taken.sorted := by
    unfold decode
    rw [framing.scan_eq _ (Nat.lt_succ_self _)]
    rfl
  obtain ⟨part, parts, ⟨rfl, outside⟩ | ⟨inside, packet, beginning, some_, proper⟩⟩ :=
    @exists_take_stream_eq _ _ TracePacket.bytes packets cut
  · rw [parts, append_nil]
    refine ⟨taken.sorted, taken.sorted, whole, whole, rfl, rfl, ?_, distinct⟩
    exact ⟨fun truncated => absurd (truncated.symm.trans intact.whole) (by decide),
      fun inside => absurd inside outside⟩
  · rw [parts]
    obtain ⟨error, ends⟩ := @Framing.scan_cut_eq _ _ _ _ _ _ _ _ acceptPacket stopAt framing
      (contained TracePacket.bytes packets cut) packet part beginning some_ proper _
      (Nat.lt_succ_self _) {}
    refine ⟨(taken.stopAt error).sorted, taken.sorted, ?_, whole, rfl, rfl, ?_, distinct⟩
    · unfold decode
      rw [ends]
      rfl
    · exact ⟨fun _ => inside, fun _ => truncated_diagnostic _ _⟩

open TracePacket in
/-- Any bytes decode to the events and waits of the packets in front of where no packet follows.
The trace is not marked as truncated if and only if the bytes are packets throughout. -/
theorem decode_any_bytes (data : List UInt8) :
    ∃ trace packets rest error whole, decode data = some trace ∧
      stream TracePacket.bytes packets ++ rest = data ∧ readPacket rest = .error error ∧
      decode (stream TracePacket.bytes packets) = some whole ∧
      trace.events = whole.events ∧ trace.schedulerWaits = whole.schedulerWaits ∧
      (trace.quality.truncated = false ↔ ∃ packets, stream TracePacket.bytes packets = data) ∧
      (trace.events.map (·.recordId.val)).Perm (range' 1 trace.events.length) ∧
      trace.events.length ≤ maxEvents := by
  let taken (packets : List TracePacket) : DecodedTrace :=
    packets.foldl (fun trace packet => trace.acceptPacket packet.payload) {}
  have complete (packets : List TracePacket) :
      decode (stream TracePacket.bytes packets) = some (taken packets).sorted := by
    rw [decode, framing.scan_eq _ (lt_succ_self _)]
    rfl
  obtain ⟨packets, rest, error, rfl, refused⟩ :=
    framing.exists_stream_append exists_bytes_of_readPacket data
  have intact : (taken packets).Intact := intact_foldl packets
  have events := perm_insertionSort BlockEvent.before (taken packets).events
  have numbered : ((taken packets).sorted.events.map (·.recordId.val)).Perm
      (range' 1 (taken packets).sorted.events.length) := by
    rw [show (taken packets).sorted.events.length = _ from events.length_eq, ← intact.numbered]
    exact events.map _
  have decoded : ∃ quality, decode (stream TracePacket.bytes packets ++ rest) =
      some { (taken packets).sorted with quality := quality } ∧
        (quality.truncated = false → rest = []) := by
    by_cases none_ : rest = []
    · exact ⟨_, by rw [none_, append_nil]; exact complete packets, fun _ => none_⟩
    · have stopped := truncated_diagnostic { (taken packets).quality with truncated := true }
        error.message
      refine ⟨_, ?_, fun unmarked => absurd (unmarked.symm.trans stopped) Bool.false_ne_true⟩
      rw [decode, framing.scan_stop_eq packets refused none_ (lt_succ_self _)]
      rfl
  obtain ⟨quality, decoded, unmarked⟩ := decoded
  refine ⟨_, packets, rest, error, _, decoded, rfl, refused, complete packets, rfl, rfl,
    ⟨fun whole => ⟨packets, ?_⟩, ?_⟩, numbered, events.length_eq.trans_le intact.few⟩
  · rw [unmarked whole, append_nil]
  · rintro ⟨others, same⟩
    rw [← same, complete] at decoded
    exact Option.some.inj decoded ▸ (intact_foldl others).whole

def issuePacket : List UInt8 :=
  [0x0a, 0x1c, 0x0a, 0x1a, 0x08, 0x00, 0x12, 0x16, 0x08, 0x64, 0x10, 0x07, 0xea, 0x02, 0x0f,
    0x08, 0x01, 0x10, 0x08, 0x18, 0x02, 0x20, 0x80, 0x08, 0x2a, 0x01, 0x52, 0x32, 0x01, 0x61]

example : (decode (issuePacket ++ issuePacket ++ issuePacket.take 9)).map (fun trace =>
    (trace.quality.truncated, trace.events.map fun event =>
      (event.recordId.val, event.bytes.val, event.rwbs))) =
    some (true, [(1, 1024, "R"), (2, 1024, "R")]) := by
  decide +kernel

end DecodedTrace

end EbpfStudio
