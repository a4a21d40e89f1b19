/-
This file proves how many configurations a capture can apply.

No key is ever removed, so the keys of all configurations share the places of a map. An attempt
succeeds exactly if its keys and those that are already there fit together, and as generations
increase no two configurations share a key.
-/

import EbpfStudio.Kernel.FilterMeaning

namespace EbpfStudio

open List Table Finset BoundedTable

def keysAmong (generation : U64) (values : List (FilterDimension × U64))
    (dimension : FilterDimension) : Finset FilterKey :=
  ((values.filter (·.1 = dimension)).map fun entry => ⟨generation, entry.2⟩).toFinset

theorem keysAmong_cons (generation : U64) (first : FilterDimension) (value : U64)
    (rest : List (FilterDimension × U64)) (dimension : FilterDimension) :
    keysAmong generation ((first, value) :: rest) dimension =
      if first = dimension then insert ⟨generation, value⟩ (keysAmong generation rest dimension)
      else keysAmong generation rest dimension := by
  unfold keysAmong
  rw [List.filter_cons]
  split
  · rename_i here
    rw [if_pos (of_decide_eq_true here), List.map_cons, List.toFinset_cons]
  · rename_i elsewhere
    rw [if_neg fun here => elsewhere (decide_eq_true here)]

namespace FilterMaps

def keySet (maps : FilterMaps) (dimension : FilterDimension) : Finset FilterKey :=
  (maps.keys dimension).table.keySet

theorem card_keySet_le (maps : FilterMaps) (dimension : FilterDimension) :
    (maps.keySet dimension).card ≤ dimension.maxEntries := by
  unfold keySet
  rw [card_keySet]
  exact (maps.keys dimension).bounded

theorem keySet_setKeys {maps : FilterMaps} {dimension : FilterDimension} {key : FilterKey}
    {map : BoundedTable dimension.maxEntries FilterKey U8}
    (stored : (maps.keys dimension).insert key 1 = some map) (other : FilterDimension) :
    (maps.setKeys dimension map).keySet other =
      if dimension = other then insert key (maps.keySet other) else maps.keySet other := by
  unfold keySet setKeys
  dsimp only
  split
  · rename_i same
    subst same
    rw [Function.update_self, (insert_eq_some.mp stored).2, keySet_insert]
  · rename_i different
    rw [Function.update_of_ne (Ne.symm different)]

theorem insertFilterValues_iff (generation : U64) (maps : FilterMaps) (number : Nat)
    (values : List (FilterDimension × U64)) :
    let staged := insertFilterValues (fun _ => false) generation maps number values
    (staged.2 = true ↔ ∀ dimension,
      (maps.keySet dimension ∪ keysAmong generation values dimension).card ≤
        dimension.maxEntries) ∧
    (staged.2 = true → ∀ dimension, staged.1.keySet dimension =
      maps.keySet dimension ∪ keysAmong generation values dimension) := by
  induction values generalizing maps number with
  | nil =>
    refine ⟨⟨fun _ dimension => ?_, fun _ => rfl⟩, fun _ dimension => ?_⟩
    · exact (congrArg card (union_empty _)).le.trans (maps.card_keySet_le dimension)
    · exact (union_empty _).symm
  | cons entry rest hypothesis =>
    obtain ⟨first, value⟩ := entry
    dsimp only [insertFilterValues]
    rw [if_neg (by decide)]
    cases stored : (maps.keys first).insert ⟨generation, value⟩ 1 with
    | some map =>
      obtain ⟨fits, sets⟩ := hypothesis (maps.setKeys first map) (number + 1)
      have moved : ∀ dimension, (maps.setKeys first map).keySet dimension ∪
          keysAmong generation rest dimension = maps.keySet dimension ∪
            keysAmong generation ((first, value) :: rest) dimension := by
        intro dimension
        rw [keySet_setKeys stored, keysAmong_cons]
        split
        · rw [insert_union, union_insert]
        · rfl
      refine ⟨fits.trans ?_, fun succeeds dimension => ?_⟩
      · simp only [moved]
      · rw [sets succeeds, moved]
    | none =>
      refine ⟨⟨fun fails => (by cases fails), fun fits => ?_⟩, fun fails => (by cases fails)⟩
      have room := fits first
      rw [keysAmong_cons, if_pos rfl, union_insert] at room
      refine absurd ((card_le_card ?_).trans room)
        (not_fits_of_insert_eq_none stored)
      exact insert_subset_insert _ subset_union_left

def generationSet (maps : FilterMaps) : Finset U64 := maps.configs.table.keySet

theorem apply_iff (collectorPid : U32) (maps : FilterMaps) (config : CaptureConfig) :
    let applied := maps.apply collectorPid (fun _ => false) config
    (applied.2 = .ok () ↔ config.filter.files = [] ∧
      (insert config.generation maps.generationSet).card ≤ maxFilterConfigs ∧
      ∀ dimension, (maps.keySet dimension ∪
        keysAmong config.generation config.filter.staged dimension).card ≤
          dimension.maxEntries) ∧
    (applied.2 = .ok () →
      applied.1.generationSet = insert config.generation maps.generationSet ∧
      ∀ dimension, applied.1.keySet dimension = maps.keySet dimension ∪
        keysAmong config.generation config.filter.staged dimension) := by
  obtain ⟨fits, sets⟩ := insertFilterValues_iff config.generation maps 0 config.filter.staged
  obtain ⟨-, sameConfigs, -⟩ := insertFilterValues_frame (fun _ => false) config.generation maps 0
    config.filter.staged
  unfold apply
  by_cases files : config.filter.files = []
  · rw [if_neg fun named => named files]
    dsimp only
    generalize insertFilterValues (fun _ => false) config.generation maps 0
      config.filter.staged = staged at fits sets sameConfigs ⊢
    obtain ⟨after, succeeded⟩ := staged
    cases succeeded with
    | false =>
      refine ⟨⟨fun fails => (by cases fails), fun all => ?_⟩, fun fails => (by cases fails)⟩
      cases fits.mpr all.2.2
    | true =>
      rw [Bool.not_true, if_neg (by decide), if_neg (by decide), sameConfigs]
      cases stored : maps.configs.insert config.generation
          (rawFilterConfig collectorPid config) with
      | none =>
        refine ⟨⟨fun fails => (by cases fails), fun all => ?_⟩, fun fails => (by cases fails)⟩
        exact absurd all.2.1 (not_fits_of_insert_eq_none stored)
      | some configs =>
        obtain ⟨accepted, inserted⟩ := insert_eq_some.mp stored
        dsimp only
        rw [if_neg (by decide)]
        refine ⟨⟨fun _ => ⟨files, ?_, fits.mp rfl⟩, fun _ => rfl⟩, fun _ => ⟨?_, sets rfl⟩⟩
        · exact (maps.configs.accepts_iff _).mp accepted
        · unfold generationSet
          rw [inserted, keySet_insert]
  · rw [if_pos files]
    exact ⟨⟨fun fails => (by cases fails), fun all => absurd all.1 files⟩,
      fun fails => (by cases fails)⟩

def appliesAll (collectorPid : U32) : FilterMaps → List CaptureConfig → Bool
  | _, [] => true
  | maps, config :: rest =>
    let applied := maps.apply collectorPid (fun _ => false) config
    match applied.2 with
    | .ok _ => appliesAll collectorPid applied.1 rest
    | .error _ => false

def keysOfRun (configs : List CaptureConfig) (dimension : FilterDimension) : Finset FilterKey :=
  (configs.flatMap fun config =>
    (config.filter.values dimension).map fun value => ⟨config.generation, value⟩).toFinset

theorem keysOfRun_cons (config : CaptureConfig) (rest : List CaptureConfig)
    (dimension : FilterDimension) :
    keysOfRun (config :: rest) dimension =
      keysAmong config.generation config.filter.staged dimension ∪ keysOfRun rest dimension := by
  refine ext fun key => ?_
  unfold keysOfRun keysAmong
  simp only [List.flatMap_cons, List.toFinset_append, mem_union, List.mem_toFinset,
    List.mem_map, List.mem_filter, decide_eq_true_eq]
  refine or_congr_left ⟨?_, ?_⟩
  · rintro ⟨value, member, rfl⟩
    exact ⟨(dimension, value), ⟨(mem_staged config.filter dimension value).mpr member, rfl⟩, rfl⟩
  · rintro ⟨⟨_, value⟩, ⟨member, rfl⟩, rfl⟩
    exact ⟨value, (mem_staged config.filter _ value).mp member, rfl⟩

theorem appliesAll_iff (collectorPid : U32) (maps : FilterMaps) (configs : List CaptureConfig) :
    appliesAll collectorPid maps configs = true ↔
      (∀ config ∈ configs, config.filter.files = []) ∧
      (maps.generationSet ∪ (configs.map (·.generation)).toFinset).card ≤ maxFilterConfigs ∧
      ∀ dimension, (maps.keySet dimension ∪ keysOfRun configs dimension).card ≤
        dimension.maxEntries := by
  induction configs generalizing maps with
  | nil =>
    refine ⟨fun _ => ⟨fun _ member => absurd member not_mem_nil, ?_, fun dimension => ?_⟩,
      fun _ => rfl⟩
    · refine (congrArg card (union_empty _)).le.trans ?_
      unfold generationSet
      rw [card_keySet]
      exact maps.configs.bounded
    · exact (congrArg card (union_empty _)).le.trans (maps.card_keySet_le dimension)
  | cons config rest hypothesis =>
    obtain ⟨fits, sets⟩ := apply_iff collectorPid maps config
    rw [appliesAll]
    cases applied : (maps.apply collectorPid (fun _ => false) config).2 with
    | ok done =>
      obtain ⟨files, -, -⟩ := fits.mp applied
      obtain ⟨generations, keys⟩ := sets applied
      rw [hypothesis, generations]
      simp only [keys, List.forall_mem_cons, keysOfRun_cons, union_assoc, List.map_cons,
        List.toFinset_cons, insert_union, union_insert]
      tauto
    | error error =>
      refine ⟨fun fails => (by cases fails), ?_⟩
      rintro ⟨files, generations, keys⟩
      have possible := fits.mpr ⟨files config mem_cons_self, ?_, fun dimension => ?_⟩
      · rw [applied] at possible
        cases possible
      · refine (card_le_card ?_).trans generations
        rw [List.map_cons, List.toFinset_cons, union_insert]
        exact insert_subset_insert _ subset_union_left
      · refine (card_le_card ?_).trans (keys dimension)
        rw [keysOfRun_cons, ← union_assoc]
        exact subset_union_left

end FilterMaps

/-- Configurations with increasing generations are all applied exactly when none is about files,
there are at most 64 of them, and in every dimension the keys of all of them together fit into
the map, which has 4096 places, or 256 for operations. -/
theorem filters_apply_iff_fit (collectorPid : U32) (configs : List CaptureConfig)
    (increasing : configs.Pairwise fun first second => first.generation < second.generation) :
    FilterMaps.appliesAll collectorPid {} configs = true ↔
      (∀ config ∈ configs, config.filter.files = []) ∧ configs.length ≤ maxFilterConfigs ∧
      ∀ dimension, (FilterMaps.keysOfRun configs dimension).card ≤
        FilterDimension.maxEntries dimension := by
  have distinct : (configs.map (·.generation)).Nodup :=
    pairwise_map.mpr (increasing.imp fun less => less.ne)
  have unused : ∀ dimension, ({} : FilterMaps).keySet dimension = ∅ := fun _ => rfl
  have empty : ({} : FilterMaps).generationSet = ∅ := rfl
  rw [FilterMaps.appliesAll_iff, empty, empty_union, toFinset_card_of_nodup distinct,
    length_map]
  simp only [unused, empty_union]

theorem filters_apply_iff_fit_two :
    let configs := [pidConfig 1 [10], pidConfig 2 [10, 20]]
    FilterMaps.appliesAll 7 {} configs = true ∧
      (FilterMaps.appliesAll 7 {} configs = true ↔
        (∀ config ∈ configs, config.filter.files = []) ∧ configs.length ≤ maxFilterConfigs ∧
        ∀ dimension, (FilterMaps.keysOfRun configs dimension).card ≤
          FilterDimension.maxEntries dimension) := by
  intro configs
  exact ⟨by decide +kernel, filters_apply_iff_fit 7 configs (by decide)⟩

/-- The configurations of the generations 1 to 65, each of which watches one process. The last
one is not applied. -/
theorem many_filters_fail :
    let configs := (List.range 65).map fun number => pidConfig (Word.ofNat 64 (number + 1)) [10]
    (configs.all fun config => config.validate maxFilterKeys = .ok ()) = true ∧
      (configs.Pairwise fun first second => first.generation < second.generation) ∧
      FilterMaps.appliesAll 7 {} (configs.take 64) = true ∧
      FilterMaps.appliesAll 7 {} configs = false := by
  intro configs
  have increasing : configs.Pairwise fun first second => first.generation < second.generation := by
    decide +kernel
  have many : configs.length = 65 := (length_map _).trans length_range
  refine ⟨by decide +kernel, increasing, by decide +kernel, ?_⟩
  clear_value configs
  have distinct : (configs.map (·.generation)).Nodup :=
    pairwise_map.mpr (increasing.imp fun less => less.ne)
  refine Bool.eq_false_iff.mpr fun applied => ?_
  -- There are 65 generations for the 64 places of the map of configurations.
  obtain ⟨-, fits, -⟩ := (FilterMaps.appliesAll_iff 7 {} configs).mp applied
  have empty : ({} : FilterMaps).generationSet = ∅ := rfl
  rw [empty, empty_union, toFinset_card_of_nodup distinct, length_map, many]
    at fits
  exact absurd fits (by decide)

end EbpfStudio
