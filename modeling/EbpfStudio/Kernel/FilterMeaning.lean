/-
This file proves what the filter maps mean after any sequence of attempts to apply a configuration.

An attempt changes only keys of its own generation (`ChangedOnly`), which becomes active only if all
of them were staged. So what was applied last stays in effect while attempts fail
(`FilterRun.Sound`). A generation that is tried again finds the earlier keys.
-/

import EbpfStudio.Kernel.Filter
import EbpfStudio.Library.Run

namespace EbpfStudio

open Run List FilterMaps

namespace FilterMaps

/-- Only keys of one generation have changed. -/
structure ChangedOnly (config : RawFilterConfig) (before after : FilterMaps) : Prop where
  configs : ∀ generation, after.configs.lookup generation = before.configs.lookup generation ∨
    generation = config.generation ∧ after.configs.lookup generation = some config
  keys : ∀ dimension key, key.generation ≠ config.generation →
    (after.keys dimension).contains key = (before.keys dimension).contains key

theorem ChangedOnly.lookup_of_ne {config : RawFilterConfig} {before after : FilterMaps}
    (changed : ChangedOnly config before after) {generation : U64}
    (other : generation ≠ config.generation) :
    after.configs.lookup generation = before.configs.lookup generation :=
  (changed.configs generation).resolve_right fun same => other same.1

section Stage

variable {fails : Nat → Bool} {generation : U64} {maps : FilterMaps}

theorem contains_setKeys {dimension : FilterDimension} {value : U64}
    {map : BoundedTable dimension.maxEntries FilterKey U8}
    (stored : (maps.keys dimension).insert ⟨generation, value⟩ 1 = some map)
    (other : FilterDimension) (key : FilterKey) :
    ((maps.setKeys dimension map).keys other).contains key =
      (decide (other = dimension ∧ key = ⟨generation, value⟩) ||
        (maps.keys other).contains key) := by
  unfold setKeys
  dsimp only
  by_cases same : other = dimension
  · subst same
    rw [Function.update_self, BoundedTable.contains_of_insert stored]
    simp
  · rw [Function.update_of_ne same]
    simp [same]

theorem insertFilterValues_frame (fails : Nat → Bool) (generation : U64) (maps : FilterMaps)
    (number : Nat) (values : List (FilterDimension × U64)) :
    let after := (insertFilterValues fails generation maps number values).1
    after.active = maps.active ∧ after.configs = maps.configs ∧
      ∀ dimension key, key.generation ≠ generation →
        (after.keys dimension).contains key = (maps.keys dimension).contains key := by
  induction values generalizing maps number with
  | nil => exact ⟨rfl, rfl, fun _ _ _ => rfl⟩
  | cons entry rest hypothesis =>
    obtain ⟨dimension, value⟩ := entry
    dsimp only [insertFilterValues]
    split
    · rename_i map stored
      obtain ⟨-, inserted⟩ := Option.ite_none_left_eq_some.mp stored
      obtain ⟨active, configs, later⟩ :=
        hypothesis (maps.setKeys dimension map) (number + 1)
      refine ⟨active, configs, fun other key different => (later other key different).trans ?_⟩
      have otherKey : key ≠ ⟨generation, value⟩ := fun same => different (by rw [same])
      rw [contains_setKeys inserted]
      simp [otherKey]
    · exact ⟨rfl, rfl, fun _ _ _ => rfl⟩

theorem contains_insertFilterValues {number : Nat} {values : List (FilterDimension × U64)}
    (succeeds : (insertFilterValues fails generation maps number values).2 = true)
    (dimension : FilterDimension) (value : U64) :
    (((insertFilterValues fails generation maps number values).1).keys dimension).contains
        ⟨generation, value⟩ =
      (decide ((dimension, value) ∈ values) ||
        (maps.keys dimension).contains ⟨generation, value⟩) := by
  induction values generalizing maps number with
  | nil => rfl
  | cons entry rest hypothesis =>
    obtain ⟨first, firstValue⟩ := entry
    dsimp only [insertFilterValues] at succeeds ⊢
    split at succeeds
    · rename_i map stored
      obtain ⟨-, inserted⟩ := Option.ite_none_left_eq_some.mp stored
      rw [hypothesis succeeds, contains_setKeys inserted]
      simp only [mem_cons, Prod.mk.injEq, FilterKey.mk.injEq, true_and]
      by_cases here : dimension = first ∧ value = firstValue
      · simp [here]
      · simp [here]
    · cases succeeds

end Stage

theorem mem_staged (filter : CaptureFilter) (dimension : FilterDimension) (value : U64) :
    (dimension, value) ∈ filter.staged ↔ value ∈ filter.values dimension := by
  unfold CaptureFilter.staged
  have listed : dimension ∈ FilterDimension.all := by cases dimension <;> decide
  simp only [mem_flatMap, mem_map, Prod.mk.injEq]
  constructor
  · rintro ⟨other, -, same, member, rfl, rfl⟩
    exact member
  · intro member
    exact ⟨dimension, listed, value, member, rfl, rfl⟩

/-- An attempt changes only what carries its generation. It leaves the active generation alone, or
it succeeds. -/
theorem apply_cases (collectorPid : U32) (fails : Nat → Bool) (maps : FilterMaps)
    (config : CaptureConfig) :
    let applied := maps.apply collectorPid fails config
    ChangedOnly (rawFilterConfig collectorPid config) maps applied.1 ∧
      ((∃ error, applied.2 = .error error) ∧ applied.1.active = maps.active ∨
        applied.2 = .ok () ∧ applied.1.active = config.generation ∧
          applied.1.configs.lookup config.generation =
            some (rawFilterConfig collectorPid config) ∧
          ∀ dimension value, (applied.1.keys dimension).contains ⟨config.generation, value⟩ =
            (decide (value ∈ config.filter.values dimension) ||
              (maps.keys dimension).contains ⟨config.generation, value⟩)) := by
  unfold apply
  split
  · exact ⟨⟨fun _ => .inl rfl, fun _ _ _ => rfl⟩, .inl ⟨⟨_, rfl⟩, rfl⟩⟩
  · obtain ⟨active, sameConfigs, others⟩ := insertFilterValues_frame fails config.generation maps
      0 config.filter.staged
    have changed : ChangedOnly (rawFilterConfig collectorPid config) maps
        (insertFilterValues fails config.generation maps 0 config.filter.staged).1 :=
      ⟨fun generation => .inl (by rw [sameConfigs]), others⟩
    dsimp only
    split
    · exact ⟨changed, .inl ⟨⟨_, rfl⟩, active⟩⟩
    · rename_i unfailed
      have staged := contains_insertFilterValues (by simpa using unfailed)
      split
      · exact ⟨changed, .inl ⟨⟨_, rfl⟩, active⟩⟩
      · rename_i configs stored
        obtain ⟨-, inserted⟩ := Option.ite_none_left_eq_some.mp stored
        have lookups := BoundedTable.lookup_of_insert inserted
        have stores : ∀ generation, configs.lookup generation = maps.configs.lookup generation ∨
            generation = config.generation ∧
              configs.lookup generation = some (rawFilterConfig collectorPid config) := by
          intro generation
          by_cases same : generation = config.generation
          · exact .inr ⟨same, (lookups generation).trans (if_pos same)⟩
          · rw [lookups, if_neg same, sameConfigs]
            exact .inl rfl
        split
        · exact ⟨⟨stores, changed.keys⟩, .inl ⟨⟨_, rfl⟩, active⟩⟩
        · refine ⟨⟨stores, changed.keys⟩, .inr ⟨rfl, rfl, ?_, fun dimension value => ?_⟩⟩
          · exact (lookups config.generation).trans (if_pos rfl)
          · rw [staged dimension value]
            simp only [mem_staged]

/-- A configuration is what the kernel reads. -/
def InEffect (collectorPid : U32) (maps : FilterMaps) : Option CaptureConfig → Prop
  | none => maps.active = 0
  | some config => maps.active = config.generation ∧
      maps.configs.lookup config.generation = some (rawFilterConfig collectorPid config) ∧
      ∀ dimension value, (maps.keys dimension).contains ⟨config.generation, value⟩ =
        decide (value ∈ config.filter.values dimension)

theorem InEffect.of_changedOnly {collectorPid : U32} {changes : RawFilterConfig}
    {before after : FilterMaps} {last : Option CaptureConfig}
    (inEffect : InEffect collectorPid before last) (changed : ChangedOnly changes before after)
    (active : after.active = before.active)
    (other : ∀ config ∈ last, config.generation ≠ changes.generation) :
    InEffect collectorPid after last := by
  cases last with
  | none => exact active.trans inEffect
  | some config =>
    obtain ⟨isActive, stored, keys⟩ := inEffect
    have different := other config rfl
    refine ⟨active.trans isActive, ?_, fun dimension value => ?_⟩
    · rw [changed.lookup_of_ne different, stored]
    · rw [changed.keys dimension _ different, keys]

end FilterMaps

/-- The maps and what was applied last. -/
structure FilterRun where
  maps : FilterMaps := {}
  last : Option CaptureConfig := none

def FilterRun.step (collectorPid : U32) (state : FilterRun)
    (attempt : CaptureConfig × (Nat → Bool)) : FilterRun :=
  let applied := state.maps.apply collectorPid attempt.2 attempt.1
  { maps := applied.1
    last := match applied.2 with
      | .ok _ => some attempt.1
      | .error _ => state.last }

/-- What was applied last is in effect, and no generation that was not tried has a key. -/
structure FilterRun.Sound (collectorPid : U32) (tried : List CaptureConfig) (state : FilterRun) :
    Prop where
  inEffect : state.maps.InEffect collectorPid state.last
  known : ∀ config ∈ state.last, config ∈ tried
  fresh : ∀ generation, generation ∉ tried.map (·.generation) → ∀ dimension value,
    (state.maps.keys dimension).contains ⟨generation, value⟩ = false

theorem FilterRun.Sound.step {collectorPid : U32} {tried : List CaptureConfig} {state : FilterRun}
    (sound : Sound collectorPid tried state) (attempt : CaptureConfig × (Nat → Bool))
    (new : attempt.1.generation ∉ tried.map (·.generation)) :
    Sound collectorPid (tried ++ [attempt.1]) (FilterRun.step collectorPid state attempt) := by
  obtain ⟨changed, outcome⟩ := apply_cases collectorPid attempt.2 state.maps attempt.1
  have fresh : ∀ generation, generation ∉ (tried ++ [attempt.1]).map (·.generation) →
      ∀ dimension value, ((FilterRun.step collectorPid state attempt).maps.keys
        dimension).contains ⟨generation, value⟩ = false := by
    intro generation untried dimension value
    rw [map_append, map_singleton, mem_append, mem_singleton,
      not_or] at untried
    exact (changed.keys dimension _ untried.2).trans
      (sound.fresh generation untried.1 dimension value)
  rcases outcome with ⟨⟨error, failed⟩, active⟩ | ⟨succeeded, active, stored, keys⟩
  · have last : (FilterRun.step collectorPid state attempt).last = state.last := by
      unfold FilterRun.step
      dsimp only
      rw [failed]
    refine ⟨?_, ?_, fresh⟩
    · rw [last]
      refine sound.inEffect.of_changedOnly changed active fun config isLast same => new ?_
      have sameGeneration : config.generation = attempt.1.generation := same
      rw [← sameGeneration]
      exact mem_map_of_mem (sound.known config isLast)
    · rw [last]
      exact fun config isLast => mem_append_left _ (sound.known config isLast)
  · have last : (FilterRun.step collectorPid state attempt).last = some attempt.1 := by
      unfold FilterRun.step
      dsimp only
      rw [succeeded]
    refine ⟨?_, ?_, fresh⟩
    · rw [last]
      refine ⟨active, stored, fun dimension value => (keys dimension value).trans ?_⟩
      rw [sound.fresh _ new, Bool.or_false]
    · rw [last]
      rintro config ⟨⟩
      exact mem_concat_self

theorem FilterRun.sound_run (collectorPid : U32) (attempts : List (CaptureConfig × (Nat → Bool)))
    (distinct : (attempts.map (·.1.generation)).Nodup) :
    Sound collectorPid (attempts.map (·.1)) (run (FilterRun.step collectorPid) {} attempts) := by
  induction attempts using reverseRecOn with
  | nil =>
    exact ⟨rfl, fun config isLast => (by cases isLast), fun _ _ _ _ => rfl⟩
  | append_singleton history attempt hypothesis =>
    rw [map_append, map_singleton, nodup_append] at distinct
    rw [run_snoc, map_append, map_singleton]
    refine (hypothesis distinct.1).step attempt fun tried => ?_
    rw [map_map] at tried
    exact distinct.2.2 _ tried _ (mem_singleton_self _) rfl

/-- An attempt that writes to the maps: it is not about files, and its first write succeeds. -/
def writes (attempt : CaptureConfig × (Nat → Bool)) : Bool :=
  attempt.1.filter.files = [] && !attempt.2 0

theorem FilterRun.step_of_not_writes (collectorPid : U32) (state : FilterRun)
    {attempt : CaptureConfig × (Nat → Bool)} (idle : writes attempt = false) :
    FilterRun.step collectorPid state attempt = state := by
  obtain ⟨config, fails⟩ := attempt
  unfold FilterRun.step FilterMaps.apply
  dsimp only
  by_cases files : config.filter.files = []
  · have first : fails 0 = true := by
      rwa [writes, decide_eq_true files, Bool.true_and, Bool.not_eq_false'] at idle
    rw [if_neg (not_not.mpr files)]
    cases config.filter.staged <;> simp [insertFilterValues, first]
  · rw [if_pos files]

theorem FilterRun.run_writes (collectorPid : U32) (attempts : List (CaptureConfig × (Nat → Bool))) :
    run (FilterRun.step collectorPid) {} attempts =
      run (FilterRun.step collectorPid) {} (attempts.filter writes) := by
  refine run_lockstep_filter (fun _ first second => first = second) rfl
    (fun _ _ _ same => by rw [same]) (fun _ attempt idle same => ?_) attempts
  rw [step_of_not_writes collectorPid _ idle, same]

theorem widen_injective : Function.Injective widen := by
  intro first second same
  have values : first.val % 2 ^ 64 = second.val % 2 ^ 64 := congrArg Fin.val same
  have firstBound := first.isLt
  have secondBound := second.isLt
  exact Fin.ext (by omega)

theorem mem_map_widen {values : List U32} {value : U32} :
    widen value ∈ values.map widen ↔ value ∈ values :=
  mem_map_of_injective widen_injective

theorem mem_values_operation {filter : CaptureFilter} {operation : IoOperation} :
    (Word.ofNat 64 (operationCode operation).val) ∈ filter.values .operation ↔
      operation ∈ filter.operations := by
  refine mem_map_of_injective fun first second same => ?_
  revert same
  cases first <;> cases second <;> decide

def Encodable (device : Device) : Prop := device.1.val < 2 ^ 12 ∧ device.2.val < 2 ^ 20

theorem encodeDevice_val {device : Device} (encodable : Encodable device) :
    (encodeDevice device).val = device.1.val * 2 ^ 20 + device.2.val := by
  obtain ⟨major, minor⟩ := device
  obtain ⟨small, smallMinor⟩ := encodable
  dsimp only at small smallMinor
  have shifted : major.val <<< 20 % 2 ^ 32 = major.val <<< 20 := by
    rw [Nat.shiftLeft_eq]
    omega
  have masked : minor.val &&& 0xfffff = minor.val := by
    rw [show 0xfffff = 2 ^ 20 - 1 from rfl, Nat.and_two_pow_sub_one_eq_mod]
    omega
  have joined : major.val <<< 20 ||| minor.val = major.val * 2 ^ 20 + minor.val := by
    rw [← Nat.shiftLeft_add_eq_or_of_lt smallMinor, Nat.shiftLeft_eq]
  show ((major.val <<< 20) % 2 ^ 32 ||| (minor.val &&& 0xfffff)) % 2 ^ 32 = _
  rw [shifted, masked, joined]
  exact Nat.mod_eq_of_lt (by omega)

theorem encodeDevice_eq_iff {device : Device} (encodable : Encodable device) (number : U32) :
    encodeDevice device = number ↔ device = kernelDevice number := by
  have value := encodeDevice_val encodable
  obtain ⟨major, minor⟩ := device
  obtain ⟨small, smallMinor⟩ := encodable
  have bound := number.isLt
  have masked : number.val &&& 0xfffff = number.val % 2 ^ 20 := Nat.and_two_pow_sub_one_eq_mod _ 20
  unfold kernelDevice
  rw [masked, Nat.shiftRight_eq_div_pow, Prod.mk.injEq, Fin.ext_iff, Fin.ext_iff, Fin.ext_iff,
    value]
  dsimp only [Word.ofNat] at small smallMinor ⊢
  omega

theorem mem_values_device {filter : CaptureFilter}
    (encodable : ∀ device ∈ filter.devices, Encodable device) (number : U32) :
    widen number ∈ filter.values .device ↔ kernelDevice number ∈ filter.devices := by
  have staged : filter.values .device = (filter.devices.map encodeDevice).map widen := by
    rw [map_map]
    rfl
  rw [staged, mem_map_widen, mem_map]
  constructor
  · rintro ⟨device, member, same⟩
    rw [← (encodeDevice_eq_iff (encodable device member) number).mp same]
    exact member
  · intro member
    exact ⟨_, member, (encodeDevice_eq_iff (encodable _ member) number).mpr rfl⟩

/-- The filter can be staged without a loss: it does not limit the size to zero, and it names
only devices that the kernel can number. -/
structure CaptureFilter.Stageable (filter : CaptureFilter) : Prop where
  limit : filter.maxBytes ≠ some 0
  devices : ∀ device ∈ filter.devices, Encodable device

theorem CaptureFilter.length_values_le (filter : CaptureFilter) (dimension : FilterDimension) :
    (filter.values dimension).length ≤ filter.keyCount := by
  unfold keyCount
  cases dimension
  all_goals
    dsimp only [values]
    rw [length_map]
    omega

namespace FilterMaps

variable {collectorPid : U32}

theorem passes_inEffect {maps : FilterMaps} {config : CaptureConfig}
    (inEffect : maps.InEffect collectorPid (some config))
    (few : config.filter.keyCount ≤ maxFilterKeys) (dimension : FilterDimension) (value : U64) :
    maps.passes (rawFilterConfig collectorPid config) dimension value =
      (decide (config.filter.values dimension = []) ||
        decide (value ∈ config.filter.values dimension)) := by
  have counted : (rawFilterConfig collectorPid config).counts dimension = 0 ↔
      config.filter.values dimension = [] := by
    have bound := (config.filter.length_values_le dimension).trans few
    rw [← length_eq_zero_iff, Fin.ext_iff]
    show (config.filter.values dimension).length % 2 ^ 16 = 0 ↔ _
    unfold maxFilterKeys at bound
    omega
  have listed : (maps.keys dimension).contains
      ⟨(rawFilterConfig collectorPid config).generation, value⟩ =
        decide (value ∈ config.filter.values dimension) := inEffect.2.2 dimension value
  unfold passes filterContains
  rw [listed, decide_eq_decide.mpr counted]

theorem sizes_of_stageable {filter : CaptureFilter} (stageable : filter.Stageable) (bytes : U32) :
    (!(decide (filter.minBytes.getD 0 ≠ 0) && decide (bytes < filter.minBytes.getD 0))) =
        filter.minBytes.all (fun minimum => minimum ≤ bytes) ∧
      (!(decide (filter.maxBytes.getD 0 ≠ 0) && decide (filter.maxBytes.getD 0 < bytes))) =
        filter.maxBytes.all (fun maximum => bytes ≤ maximum) := by
  have limit := stageable.limit
  constructor
  · cases filter.minBytes with
    | none => rfl
    | some minimum =>
      rw [Bool.eq_iff_iff]
      simp only [Option.getD_some, Option.all_some, Bool.not_eq_true', Bool.and_eq_false_iff,
        decide_eq_false_iff_not, decide_eq_true_eq, not_not, not_lt]
      refine ⟨fun either => either.elim (fun zero => ?_) id, .inr⟩
      rw [zero]
      exact Fin.zero_le bytes
  · cases known : filter.maxBytes with
    | none => rfl
    | some maximum =>
      have nonzero : maximum ≠ 0 := fun zero => limit (by rw [known, zero])
      rw [Bool.eq_iff_iff]
      simp only [Option.getD_some, Option.all_some, Bool.not_eq_true', Bool.and_eq_false_iff,
        decide_eq_false_iff_not, decide_eq_true_eq, not_not, not_lt]
      exact ⟨fun either => either.resolve_left nonzero, .inr⟩

theorem matchesRequest_inEffect {maps : FilterMaps} {config : CaptureConfig}
    (inEffect : maps.InEffect collectorPid (some config))
    (valid : config.validate maxFilterKeys = .ok ()) (stageable : config.filter.Stageable)
    {request : FilteredRequest} (other : request.pid ≠ collectorPid) :
    maps.matchesRequest request = config.filter.admits request := by
  obtain ⟨nonzero, few⟩ := config.of_validate valid
  have active : maps.activeFilter = some (rawFilterConfig collectorPid config) := by
    unfold activeFilter
    rw [if_neg (inEffect.1 ▸ nonzero), inEffect.1, inEffect.2.1]
  have isOther : (!(decide ((rawFilterConfig collectorPid config).collectorPid ≠ 0) &&
      decide (request.pid = (rawFilterConfig collectorPid config).collectorPid))) = true := by
    have different : ¬ request.pid = (rawFilterConfig collectorPid config).collectorPid := other
    rw [decide_eq_false different, Bool.and_false, Bool.not_false]
  obtain ⟨minimum, maximum⟩ := sizes_of_stageable stageable request.bytes
  have pids : widen request.pid ∈ config.filter.values .pid ↔ request.pid ∈ config.filter.pids :=
    mem_map_widen
  have tids : widen request.tid ∈ config.filter.values .tid ↔ request.tid ∈ config.filter.tids :=
    mem_map_widen
  have uids : widen request.uid ∈ config.filter.values .uid ↔ request.uid ∈ config.filter.uids :=
    mem_map_widen
  have devices := mem_values_device stageable.devices request.device
  unfold matchesRequest matchesFilter CaptureFilter.admits
  rw [active, ← minimum, ← maximum]
  dsimp only
  rw [isOther, passes_inEffect inEffect few, passes_inEffect inEffect few,
    passes_inEffect inEffect few, passes_inEffect inEffect few, passes_inEffect inEffect few]
  simp only [pids, tids, uids, devices, mem_values_operation]
  simp only [CaptureFilter.values, map_eq_nil_iff, rawFilterConfig]
  rw [Bool.true_and]
  ac_rfl

end FilterMaps

/-- After any attempts with valid configurations, of which any insertion may fail, the kernel lets
exactly the requests pass that the configuration applied last admits, and all requests when none
was applied, provided that no generation is written twice and that the filters can be staged. -/
theorem staged_maps_mean_filter (collectorPid : U32)
    (attempts : List (CaptureConfig × (Nat → Bool)))
    (valid : ∀ attempt ∈ attempts, attempt.1.validate maxFilterKeys = .ok ())
    (distinct : ((attempts.filter writes).map (·.1.generation)).Nodup)
    (stageable : ∀ attempt ∈ attempts, attempt.1.filter.Stageable)
    (request : FilteredRequest) (other : request.pid ≠ collectorPid) :
    let state := run (FilterRun.step collectorPid) {} attempts
    state.maps.matchesRequest request =
      state.last.elim true fun config => config.filter.admits request := by
  obtain ⟨inEffect, known, -⟩ := FilterRun.sound_run collectorPid _ distinct
  rw [← FilterRun.run_writes] at inEffect known
  dsimp only
  cases last : (run (FilterRun.step collectorPid) {} attempts).last with
  | none =>
    rw [last] at inEffect
    have inactive : (run (FilterRun.step collectorPid) {} attempts).maps.active = 0 := inEffect
    unfold matchesRequest matchesFilter activeFilter
    rw [if_pos inactive]
    rfl
  | some config =>
    rw [last] at inEffect known
    obtain ⟨attempt, member, rfl⟩ := mem_map.mp (known config rfl)
    have tried := mem_of_mem_filter member
    exact matchesRequest_inEffect inEffect (valid attempt tried) (stageable attempt tried) other

def pidConfig (generation : U64) (pids : List U32) : CaptureConfig where
  generation := generation
  mode := .balanced
  filter := { pids := pids }
  detail := {}
  trigger := none

def readBy (pid : U32) : FilteredRequest where
  pid := pid
  tid := pid
  uid := 10_001
  device := 0x800000
  bytes := 4096
  operation := .read

theorem staged_maps_mean_filter_pid :
    let attempts : List (CaptureConfig × (Nat → Bool)) :=
      [(pidConfig 1 [10], fun number => number = 0), (pidConfig 1 [10], fun _ => false),
        (pidConfig 2 [20], fun number => number = 1)]
    let state := run (FilterRun.step 7) {} attempts
    (∀ attempt ∈ attempts, attempt.1.validate maxFilterKeys = .ok ()) ∧
      ((attempts.filter writes).map (·.1.generation)).Nodup ∧
      state.last = some (pidConfig 1 [10]) ∧
      state.maps.matchesRequest (readBy 10) =
        state.last.elim true fun config => config.filter.admits (readBy 10) := by
  intro attempts state
  have valid : ∀ attempt ∈ attempts, attempt.1.validate maxFilterKeys = .ok () := by
    simp only [attempts, forall_mem_cons]
    exact ⟨by decide, by decide, by decide, fun _ member => absurd member not_mem_nil⟩
  have distinct : ((attempts.filter writes).map (·.1.generation)).Nodup := by decide
  have stageable : ∀ attempt ∈ attempts, attempt.1.filter.Stageable := by
    simp only [attempts, forall_mem_cons]
    refine ⟨⟨by decide, ?_⟩, ⟨by decide, ?_⟩, ⟨by decide, ?_⟩,
      fun _ member => absurd member not_mem_nil⟩
    all_goals exact fun _ member => absurd member not_mem_nil
  exact ⟨valid, distinct, by decide +kernel,
    staged_maps_mean_filter 7 attempts valid distinct stageable (readBy 10) (by decide)⟩

/-- Generation 2 is tried with process 10, which fails after its key was staged, and again with
process 20. The key of the first attempt is still there, so the kernel lets requests of process
10 pass. -/
theorem retried_generation_keeps_keys :
    let attempts : List (CaptureConfig × (Nat → Bool)) :=
      [(pidConfig 1 [30], fun _ => false), (pidConfig 2 [10], fun number => number = 1),
        (pidConfig 2 [20], fun _ => false)]
    let state := run (FilterRun.step 7) {} attempts
    (attempts.all fun attempt => attempt.1.validate maxFilterKeys = .ok ()) = true ∧
      state.last = some (pidConfig 2 [20]) ∧
      state.maps.matchesRequest (readBy 10) = true ∧
      (pidConfig 2 [20]).filter.admits (readBy 10) = false := by
  decide +kernel

end EbpfStudio
