/-
This file proves that a path is inferred only from file records that do not contradict each other.

Of the records of a compatible identity near the request, those of the same task at the same time
are preferred. The search stops without a path when two of them differ. The result is characterised
by the set of these records, so it does not depend on their order.
-/

import EbpfStudio.Protocol.Exactness

namespace EbpfStudio

open List Option

/-- The record is of a compatible identity and within 30 seconds of the block interval. -/
def nearIdentity (identity : FileIdentity) (blockStart blockEnd : U64) (file : FileIo) : Bool :=
  (file.fileIdentity.any fun candidate => fileIdentitiesCompatible candidate identity) &&
    file.startTsNs ≤ blockEnd.saturatingAdd 30_000_000_000 &&
    blockStart ≤ file.endTsNs.saturatingAdd 30_000_000_000

def recordsNear (node : IoNode) (files : List FileIo) (blockStart blockEnd : U64) :
    List FileIo :=
  node.file.elim [] fun identity => files.filter (nearIdentity identity blockStart blockEnd)

/-- The contemporaneous records of the same task, or all of them if there are none. -/
def preferContemporaneous (node : IoNode) (records : List FileIo) : List FileIo :=
  if (records.filter (contemporaneousWith node)).isEmpty then records
  else records.filter (contemporaneousWith node)

def eligibleRecords (node : IoNode) (files : List FileIo) (blockStart blockEnd : U64) :
    List FileIo :=
  preferContemporaneous node
    ((recordsNear node files blockStart blockEnd).filter fun file => (recordedFilePath file).isSome)

theorem preferContemporaneous_perm (node : IoNode) {records others : List FileIo}
    (order : records.Perm others) :
    (preferContemporaneous node records).Perm (preferContemporaneous node others) := by
  have filtered := order.filter (contemporaneousWith node)
  unfold preferContemporaneous
  rw [filtered.isEmpty_eq]
  split
  · exact order
  · exact filtered

theorem eligibleRecords_perm (node : IoNode) {files others : List FileIo}
    (blockStart blockEnd : U64)
    (order : files.Perm others) :
    (eligibleRecords node files blockStart blockEnd).Perm
      (eligibleRecords node others blockStart blockEnd) := by
  refine preferContemporaneous_perm node (List.Perm.filter _ ?_)
  unfold recordsNear
  cases node.file with
  | none => exact List.Perm.refl _
  | some identity => exact order.filter _

theorem inferredOriginPath_eq (node : IoNode) (files : List FileIo) (blockStart blockEnd : U64) :
    inferredOriginPath node files blockStart blockEnd =
      agreedPath (eligibleRecords node files blockStart blockEnd) := by
  unfold inferredOriginPath eligibleRecords recordsNear
  cases node.file with
  | none => rfl
  | some identity =>
    rw [Option.elim_some, List.filter_filter]
    have candidates : files.filter (inferenceCandidate identity blockStart blockEnd) =
        files.filter fun file => (recordedFilePath file).isSome &&
          nearIdentity identity blockStart blockEnd file :=
      filter_congr fun file _ => Bool.and_comm _ _
    rw [← candidates]
    rfl

variable {path : String}

theorem recordedFilePath_ne_empty {file : FileIo} (recorded : recordedFilePath file = some path) :
    path ≠ "" := by
  rcases or_eq_some_iff.mp recorded with first | ⟨-, second⟩
  · exact of_decide_eq_true (filter_eq_some_iff.mp first).2
  · exact of_decide_eq_true (filter_eq_some_iff.mp second).2

theorem path_of_recorded {file : FileIo} (capturedTsNs : U64)
    (recorded : recordedFilePath file = some path) :
    ((file.pathSnapshot.filter fun snapshot => snapshot.path.any (· ≠ "")).getD
      (procFdSnapshot path capturedTsNs)).path = some path := by
  unfold recordedFilePath at recorded
  cases taken : file.pathSnapshot with
  | none => rfl
  | some snapshot =>
    rw [taken, bind_some] at recorded
    cases text : snapshot.path with
    | none => simp [Option.filter, text, procFdSnapshot]
    | some named =>
      by_cases empty : named = ""
      · simp [Option.filter, text, empty, procFdSnapshot]
      · -- the snapshot's own path comes first
        have first : named = path := by simpa [text, Option.filter, empty] using recorded
        subst first
        simp [Option.filter, text, empty]

theorem exists_latestEnding {records : List FileIo} (some_ : records ≠ []) :
    ∃ file ∈ records, latestEnding records = some file := by
  induction records using reverseRecOn with
  | nil => exact absurd rfl some_
  | append_singleton earlier file hypothesis =>
    have last : file ∈ earlier ++ [file] := mem_append_right _ (mem_singleton_self file)
    unfold latestEnding at hypothesis ⊢
    rw [foldl_append, foldl_cons, foldl_nil]
    by_cases none_ : earlier = []
    · subst none_
      exact ⟨file, last, rfl⟩
    · obtain ⟨held, member, found⟩ := hypothesis none_
      rw [found]
      dsimp only
      split
      · exact ⟨file, last, rfl⟩
      · exact ⟨held, mem_append_left _ member, rfl⟩

theorem agreedPath_spec (records : List FileIo) :
    (∀ snapshot ∈ agreedPath records, snapshot.path.isSome = true) ∧
      ∀ text, (agreedPath records).bind (·.path) = some text ↔
        records ≠ [] ∧ ∀ file ∈ records, recordedFilePath file = some text := by
  by_cases none_ : records = []
  · subst none_
    exact ⟨fun _ impossible => (nomatch impossible),
      fun _ => ⟨fun impossible => (nomatch impossible), fun ⟨some_, _⟩ => absurd rfl some_⟩⟩
  obtain ⟨last, member, found⟩ := exists_latestEnding none_
  unfold agreedPath
  rw [found, bind_eq_bind, bind_some]
  cases recorded : recordedFilePath last with
  | none =>
    refine ⟨fun _ impossible => (nomatch impossible), fun text =>
      ⟨fun impossible => (nomatch impossible), fun ⟨_, agree⟩ => ?_⟩⟩
    have named := agree last member
    rw [recorded] at named
    cases named
  | some path =>
    have named := path_of_recorded last.endTsNs recorded
    rw [bind_eq_bind, bind_some]
    by_cases conflict : records.any fun candidate => recordedFilePath candidate ≠ some path
    · rw [if_pos conflict]
      refine ⟨fun _ impossible => (nomatch impossible), fun text =>
        ⟨fun impossible => (nomatch impossible), fun ⟨_, agree⟩ => ?_⟩⟩
      obtain ⟨other, among, differs⟩ := any_eq_true.mp conflict
      have same : some path = some text := recorded.symm.trans (agree last member)
      exact absurd ((agree other among).trans same.symm) (of_decide_eq_true differs)
    · rw [if_neg conflict]
      have agree : ∀ file ∈ records, recordedFilePath file = some path := by
        intro file among
        by_contra differs
        exact conflict (any_eq_true.mpr ⟨file, among, decide_eq_true differs⟩)
      refine ⟨?_, fun text => ?_⟩
      · rintro snapshot ⟨⟩
        rw [named]
        rfl
      · rw [bind_some, named]
        refine ⟨fun same => ⟨none_, fun file among => (agree file among).trans same⟩,
          fun ⟨_, others⟩ => recorded.symm.trans (others last member)⟩

theorem map_path_eq {given : Option PathSnapshot}
    (present : ∀ snapshot ∈ given, snapshot.path.isSome = true) :
    given.map (·.path) = (given.bind (·.path)).map some := by
  cases given with
  | none => rfl
  | some snapshot =>
    obtain ⟨text, named⟩ := isSome_iff_exists.mp (present snapshot rfl)
    rw [map_some, bind_some, named, map_some]

/-- A path is inferred only if the records that count all carry it and there is one, whenever
they do, and with the same text in whatever order the records are listed. -/
theorem inferred_paths_are_unanimous (node : IoNode) (files : List FileIo)
    (blockStart blockEnd : U64) :
    let eligible := eligibleRecords node files blockStart blockEnd
    (∀ snapshot ∈ inferredOriginPath node files blockStart blockEnd,
      ∃ text, text ≠ "" ∧ snapshot.path = some text ∧ eligible ≠ [] ∧
        ∀ file ∈ eligible, recordedFilePath file = some text) ∧
      (∀ text, eligible ≠ [] → (∀ file ∈ eligible, recordedFilePath file = some text) →
        ∃ snapshot ∈ inferredOriginPath node files blockStart blockEnd,
          snapshot.path = some text) ∧
      ∀ reordered : List FileIo, reordered.Perm files →
        (inferredOriginPath node reordered blockStart blockEnd).map (·.path) =
          (inferredOriginPath node files blockStart blockEnd).map (·.path) := by
  intro eligible
  simp only [inferredOriginPath_eq]
  obtain ⟨present, agreed⟩ := agreedPath_spec eligible
  refine ⟨fun snapshot given => ?_, fun text some_ agree => ?_, fun reordered order => ?_⟩
  · obtain ⟨text, named⟩ := isSome_iff_exists.mp (present snapshot given)
    obtain ⟨some_, agree⟩ := (agreed text).mp (by rw [given, bind_some, named])
    obtain ⟨file, member⟩ := exists_mem_of_ne_nil eligible some_
    exact ⟨text, recordedFilePath_ne_empty (agree file member), named, some_, agree⟩
  · exact bind_eq_some_iff.mp ((agreed text).mpr ⟨some_, agree⟩)
  · have same := eligibleRecords_perm node blockStart blockEnd order
    obtain ⟨otherPresent, otherAgreed⟩ :=
      agreedPath_spec (eligibleRecords node reordered blockStart blockEnd)
    have texts : (agreedPath (eligibleRecords node reordered blockStart blockEnd)).bind (·.path) =
        (agreedPath eligible).bind (·.path) := by
      ext text
      rw [otherAgreed, agreed, ← length_pos_iff, ← length_pos_iff, same.length_eq]
      simp only [same.mem_iff, eligible]
    rw [map_path_eq otherPresent, map_path_eq present, texts]

/-- The small read is recorded twice, once without its path: the other record gives the path,
although not every record of the file near the request carries it. -/
theorem inferred_path_is_not_on_every_record :
    let node := { readOrigin with path := none }
    let files := [{ readFile 900 1500 with
        fileIdentity := some ⟨8, 0, 42, none, none⟩, path := some "/data/a" },
      { readFile 900 1500 with fileIdentity := some ⟨8, 0, 42, none, none⟩ }]
    (inferredOriginPath node files 1000 2000).map (·.path) = some (some "/data/a") ∧
      ¬ ∀ file ∈ preferContemporaneous node (recordsNear node files 1000 2000),
        recordedFilePath file = some "/data/a" := by
  decide +kernel

end EbpfStudio
