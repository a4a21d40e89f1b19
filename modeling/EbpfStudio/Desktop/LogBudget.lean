/-
This file proves when a rotating log keeps to the number of files it is given.

The files are a packing of the lines in which each file is filled until the next line does not fit
(`nextFit`). Such a packing needs no more files than any division of the lines in their order, so
the log stays within the number of files exactly if some division does.
-/

import EbpfStudio.Desktop.LogRotation

namespace EbpfStudio

open FileTree Packing List RotatingJsonl

section Tree

variable {directory : TreePath} {name : String} {start tree : LogTree}
  {files : List (List UInt8)} {gap : Nat}

/-! ### The files of a moment -/

def present (count gap : Nat) : List Nat :=
  (List.range count).map fun index => if index < gap then index else index + 1

theorem nodup_present (count gap : Nat) : (present count gap).Nodup := by
  refine Nodup.map ?_ nodup_range
  intro first second same
  dsimp only at same
  split at same <;> split at same <;> omega

theorem mem_present {index : Nat} :
    index ∈ present files.length gap ↔ (holed files gap index).isSome = true := by
  unfold present holed
  simp only [mem_map, mem_range]
  constructor
  · rintro ⟨place, within, rfl⟩
    split
    · simpa using within
    · rw [if_neg (by omega), if_neg (by omega), Nat.add_sub_cancel]
      simpa using within
  · intro there
    split at there
    · rename_i below
      exact ⟨index, by simpa using there, if_pos below⟩
    · split at there
      · cases there
      · rename_i notBelow notGap
        have within : index - 1 < files.length := by simpa using there
        exact ⟨index - 1, within, by rw [if_neg (by omega)]; omega⟩

theorem mem_of_holed {index : Nat} {contents : List UInt8}
    (held : holed files gap index = some contents) : contents ∈ files := by
  unfold holed at held
  split at held
  · exact mem_of_getElem? held
  · split at held
    · cases held
    · exact mem_of_getElem? held

theorem Stores.perm_readDir (stores : Stores directory name start (holed files gap) tree)
    (empty : start.readDir directory = []) :
    (tree.readDir directory).Perm ((present files.length gap).map (slotName name)) := by
  rw [perm_ext_iff_of_nodup (nodup_readDir _ _)
    ((nodup_present _ _).map (slotName_injective name))]
  intro other
  rw [mem_readDir, mem_map]
  constructor
  · intro there
    by_cases slot : ∃ index, directory ++ [other] = slotPath (directory ++ [name]) index
    · obtain ⟨index, same⟩ := slot
      rw [same, stores.slot, Option.isSome_map] at there
      refine ⟨index, mem_present.mpr there, ?_⟩
      rw [slotPath_eq, append_right_inj, singleton_inj] at same
      exact same.symm
    · rw [stores.other _ (not_exists.mp slot), ← mem_readDir, empty] at there
      cases there
  · rintro ⟨index, member, rfl⟩
    rw [← slotPath_eq, stores.slot, Option.isSome_map]
    exact mem_present.mp member

theorem Stores.length_readDir (stores : Stores directory name start (holed files gap) tree)
    (empty : start.readDir directory = []) : (tree.readDir directory).length = files.length := by
  rw [(stores.perm_readDir empty).length_eq, length_map, present, length_map,
    length_range]

theorem Stores.readFile_eq {slots : Slots} (stores : Stores directory name start slots tree)
    (index : Nat) : tree.readFile (slotPath (directory ++ [name]) index) = slots index := by
  unfold FileTree.readFile
  rw [stores.slot]
  cases slots index <;> rfl

theorem filterMap_getElem? {count : Nat} (enough : files.length ≤ count) :
    (range count).filterMap (fun index => files[index]?) = files := by
  induction files generalizing count with
  | nil => simp
  | cons contents rest hypothesis =>
    cases count with
    | zero => cases enough
    | succ count =>
      rw [range_succ_eq_map]
      show contents :: ((range count).map Nat.succ).filterMap _ = _
      rw [filterMap_map]
      exact congrArg (contents :: ·) (hypothesis (Nat.le_of_succ_le_succ enough))

theorem holed_cons (contents : List UInt8) (rest : List (List UInt8)) (gap : Nat) :
    holed (contents :: rest) (gap + 1) ∘ Nat.succ = holed rest gap := by
  funext index
  show holed (contents :: rest) (gap + 1) (index + 1) = _
  unfold holed
  simp only [Nat.add_lt_add_iff_right, Nat.add_right_cancel_iff, getElem?_cons_succ,
    Nat.add_sub_cancel]
  split
  · rfl
  · split
    · rfl
    · cases index with
      | zero => omega
      | succ index => rfl

theorem filterMap_holed {count : Nat} (enough : files.length < count) :
    (range count).filterMap (holed files gap) = files := by
  induction gap generalizing files count with
  | zero =>
    cases count with
    | zero => cases enough
    | succ count =>
      rw [range_succ_eq_map, filterMap_cons_none rfl, filterMap_map]
      exact filterMap_getElem? (Nat.le_of_lt_succ enough)
  | succ gap hypothesis =>
    cases files with
    | nil =>
      rw [holed_of_length_le (Nat.zero_le _)]
      simp
    | cons contents rest =>
      cases count with
      | zero => cases enough
      | succ count =>
        rw [range_succ_eq_map]
        show contents :: ((range count).map Nat.succ).filterMap _ = _
        rw [filterMap_map, holed_cons]
        exact congrArg (contents :: ·) (hypothesis (Nat.lt_of_succ_lt_succ enough))

theorem Stores.logged_eq (stores : Stores directory name start (holed files gap) tree)
    {maxFiles : Nat} (few : files.length ≤ maxFiles) :
    logged (directory ++ [name]) maxFiles tree = files.reverse.flatten := by
  unfold logged
  rw [show (fun index => tree.readFile (slotPath (directory ++ [name]) index)) = holed files gap
      from funext stores.readFile_eq, filterMap_reverse,
    filterMap_holed (Nat.lt_succ_of_le few)]

theorem Stores.withinBudget (stores : Stores directory name start (holed files gap) tree)
    (empty : start.readDir directory = []) {appended : List UInt8} {maxBytes maxFiles : Nat}
    (few : files.length ≤ maxFiles) (small : ∀ contents ∈ files, contents.length ≤ maxBytes)
    (ends : files.reverse.flatten <:+ appended) :
    WithinBudget (directory ++ [name]) maxBytes maxFiles ⟨appended, tree⟩ := by
  have listed : ∀ other ∈ tree.readDir directory, ∃ index ∈ present files.length gap,
      directory ++ [other] = slotPath (directory ++ [name]) index := by
    intro other member
    obtain ⟨index, there, rfl⟩ := mem_map.mp ((stores.perm_readDir empty).mem_iff.mp member)
    exact ⟨index, there, (slotPath_eq directory name index).symm⟩
  refine ⟨?_, ?_, ?_, ?_⟩
  · rw [dropLast_concat, stores.length_readDir empty]
    exact few
  · rw [dropLast_concat]
    intro other member
    obtain ⟨index, there, same⟩ := listed other member
    obtain ⟨contents, held⟩ := Option.isSome_iff_exists.mp (mem_present.mp there)
    exact ⟨contents, by rw [same, stores.readFile_eq, held],
      small contents (mem_of_holed held)⟩
  · rw [dropLast_concat]
    intro other member
    obtain ⟨index, there, same⟩ := listed other member
    obtain ⟨place, within, rfl⟩ := mem_map.mp there
    rw [mem_range] at within
    exact ⟨_, by split <;> omega, same⟩
  · rw [stores.logged_eq few]
    exact ends

/-! ### Lines packed into files -/

def lastFiles (limit count : Nat) (lines : List (List UInt8)) : List (List UInt8) :=
  ((nextFit List.length limit lines).take count).map List.flatten

/-- Files as they may be at some moment: no longer than the limit, the end of what was appended,
and no more than the packing needs or than there are slots. -/
structure LogFiles (limit maxFiles needed : Nat) (appended : List UInt8)
    (files : List (List UInt8)) : Prop where
  few : files.length ≤ maxFiles + 1
  least : files.length ≤ needed
  small : ∀ contents ∈ files, contents.length ≤ limit
  ends : files.reverse.flatten <:+ appended

section Packing

variable {limit maxFiles : Nat} {lines : List (List UInt8)}

theorem length_flatten_eq_load (bin : List (List UInt8)) :
    bin.flatten.length = load length bin := length_flatten

theorem logFiles_lastFiles (short : ∀ line ∈ lines, line.length ≤ limit) {count : Nat}
    (few : count ≤ maxFiles + 1) :
    LogFiles limit maxFiles (nextFit length limit lines).length lines.flatten
      (lastFiles limit count lines) := by
  unfold lastFiles
  refine ⟨?_, ?_, ?_, ?_⟩
  · rw [length_map, length_take]
    exact (min_le_left _ _).trans few
  · rw [length_map, length_take]
    exact min_le_right _ _
  · intro contents member
    obtain ⟨bin, taken, rfl⟩ := mem_map.mp member
    rw [length_flatten_eq_load]
    exact load_nextFit short bin (mem_of_mem_take taken)
  · have parts := @flatten_nextFit _ length limit lines
    rw [← take_append_drop count (nextFit length limit lines), reverse_append,
      flatten_append] at parts
    refine ⟨((nextFit length limit lines).drop count).reverse.flatten.flatten, ?_⟩
    conv_rhs => rw [← parts]
    rw [flatten_append, ← map_reverse]
    exact congrArg _ (flatten_flatten).symm

theorem take_lastFiles :
    (lastFiles limit (maxFiles + 1) lines).take maxFiles = lastFiles limit maxFiles lines := by
  unfold lastFiles
  rw [← map_take, take_take, Nat.min_eq_left (Nat.le_succ _)]

section Cons

variable {bin : List (List UInt8)} {rest : List (List (List UInt8))} {line : List UInt8}

section

variable (bins : nextFit List.length limit lines = bin :: rest)

include bins

theorem lastFiles_of_cons :
    lastFiles limit (maxFiles + 1) lines =
      bin.flatten :: (rest.take maxFiles).map flatten := by
  unfold lastFiles
  rw [bins]
  rfl

theorem lastFiles_start (full : limit < load length bin + line.length) :
    lastFiles limit (maxFiles + 1) (lines ++ [line]) = line :: lastFiles limit maxFiles lines := by
  unfold lastFiles
  rw [nextFit_snoc, bins, put, if_pos full, take_succ_cons, map_cons,
    flatten_singleton]

theorem lastFiles_extend (fits : ¬ limit < load length bin + line.length) :
    lastFiles limit (maxFiles + 1) (lines ++ [line]) =
      (bin.flatten ++ line) :: (rest.take maxFiles).map flatten := by
  unfold lastFiles
  rw [nextFit_snoc, bins, put, if_neg fits, take_succ_cons, map_cons,
    flatten_append, flatten_singleton]

end

end Cons

variable {files : List (List UInt8)}

theorem LogFiles.nil_cons {needed : Nat} {appended : List UInt8}
    (keeps : LogFiles limit maxFiles needed appended files) (room : files.length ≤ maxFiles) :
    LogFiles limit maxFiles (needed + 1) appended ([] :: files) where
  few := Nat.succ_le_succ room
  least := Nat.succ_le_succ keeps.least
  small contents member := by
    rcases mem_cons.mp member with rfl | old
    · exact Nat.zero_le _
    · exact keeps.small contents old
  ends := by
    rw [reverse_cons, flatten_append]
    simpa using keeps.ends

theorem LogFiles.mono {needed more : Nat} {appended : List UInt8}
    (keeps : LogFiles limit maxFiles needed appended files) (order : needed ≤ more) :
    LogFiles limit maxFiles more appended files :=
  { keeps with least := keeps.least.trans order }

end Packing

/-! ### Appending a record -/

structure Writes (directory : TreePath) (name : String) (start : LogTree) (maxBytes : U64)
    (maxFiles limit : Nat) (lines : List (List UInt8)) (writer : RotatingJsonl) (tree : LogTree) :
    Prop where
  path : writer.path = directory ++ [name]
  maxBytes_eq : writer.maxBytes = maxBytes
  maxFiles_eq : writer.maxFiles = maxFiles
  bytes : ∀ current ∈ (lastFiles limit (maxFiles + 1) lines).head?,
    writer.bytes.val = min current.length (2 ^ 64 - 1)
  stores : Stores directory name start
    (fun index => (lastFiles limit (maxFiles + 1) lines)[index]?) tree

theorem update_cons_zero (current contents : List UInt8) (older : List (List UInt8)) :
    Function.update (fun index => (current :: older)[index]?) 0 (some contents) =
      fun index => (contents :: older)[index]? := by
  funext index
  cases index <;> rfl

def Passing (limit maxFiles : Nat) (lines : List (List UInt8)) (line : List UInt8)
    (slots : Slots) : Prop :=
  ∃ files gap, slots = holed files gap ∧
    LogFiles limit maxFiles (nextFit List.length limit (lines ++ [line])).length lines.flatten files

theorem passing_plain {limit maxFiles : Nat} {lines : List (List UInt8)} {line : List UInt8}
    {files : List (List UInt8)}
    (keeps : LogFiles limit maxFiles (nextFit length limit (lines ++ [line])).length
      lines.flatten files) : Passing limit maxFiles lines line fun index => files[index]? :=
  ⟨files, files.length, (holed_of_length_le le_rfl).symm, keeps⟩

def Decides (maxBytes : U64) (limit : Nat) (lines : List (List UInt8)) (line : List UInt8) :
    Prop :=
  ∀ bin ∈ (nextFit List.length limit lines).head?,
    (maxBytes.val < min (load List.length bin + line.length) (2 ^ 64 - 1) ↔
      limit < load List.length bin + line.length)

section Append

variable {maxBytes : U64} {maxFiles limit : Nat} {lines : List (List UInt8)}
  {writer : RotatingJsonl} {encode : DiagnosticRecord → List UInt8} {record : DiagnosticRecord}
  {bin : List (List UInt8)} {rest : List (List (List UInt8))}

section

variable (writes : Writes directory name start maxBytes maxFiles limit lines writer tree)
  (bins : nextFit List.length limit lines = bin :: rest)

include writes bins

theorem Writes.bytes_add (more : Nat) :
    (writer.bytes.saturatingAdd more).val =
      min (load length bin + more) (2 ^ 64 - 1) := by
  have bytes := writes.bytes bin.flatten (by rw [lastFiles_of_cons bins]; rfl)
  rw [length_flatten_eq_load] at bytes
  rw [Word.saturatingAdd_val, bytes]
  omega

theorem Writes.rotates_iff (own : (logLine encode record).length ≤ limit)
    (decides : Decides maxBytes limit lines (logLine encode record)) :
    (0 < writer.bytes ∧
        writer.maxBytes < writer.bytes.saturatingAdd (logLine encode record).length) ↔
      limit < load length bin + (logLine encode record).length := by
  have bytes := writes.bytes_add bins 0
  rw [Word.saturatingAdd_val] at bytes
  have largest := writer.bytes.isLt
  rw [writes.maxBytes_eq, Fin.lt_def (a := maxBytes), writes.bytes_add bins,
    decides bin (by rw [bins]; rfl), and_iff_right_iff_imp]
  intro full
  show 0 < writer.bytes.val
  omega

end

variable {disk : Disk}

theorem Disk.Holds.appendLine {allowed : Slots → Prop} {current : List UInt8}
    {older : List (List UInt8)}
    (holds : disk.Holds directory name start allowed fun index => (current :: older)[index]?)
    (fine : allowed fun index => (current :: older)[index]?) (line : List UInt8) :
    ∃ next, disk.perform (·.appendFile (directory ++ [name]) line) = .ok next ∧
      next.Holds directory name start allowed fun index =>
        ((current ++ line) :: older)[index]? := by
  have writes := holds.perform fine (·.appendFile (directory ++ [name]) line)
    (holds.now.appendFile rfl line)
  rw [update_cons_zero] at writes
  exact writes

structure Appended (directory : TreePath) (name : String) (start : LogTree) (maxBytes : U64)
    (maxFiles limit : Nat) (lines : List (List UInt8)) (line : List UInt8)
    (writer : RotatingJsonl) (disk : Disk) : Prop where
  writes : Writes directory name start maxBytes maxFiles limit (lines ++ [line]) writer disk.tree
  past : ∀ passed ∈ disk.past, ∃ held, Passing limit maxFiles lines line held ∧
    Stores directory name start held passed

section

variable (writes : Writes directory name start maxBytes maxFiles limit lines writer tree)
  (short : ∀ line ∈ lines, line.length ≤ limit)

include writes short

theorem Writes.holds (line : List UInt8) (bins : nextFit length limit lines = bin :: rest) :
    Passing limit maxFiles lines line
        (fun index => (bin.flatten :: (rest.take maxFiles).map flatten)[index]?) ∧
      Disk.Holds directory name start (Passing limit maxFiles lines line)
        (fun index => (bin.flatten :: (rest.take maxFiles).map flatten)[index]?)
        { tree := tree } := by
  rw [← lastFiles_of_cons bins]
  exact ⟨passing_plain ((logFiles_lastFiles short le_rfl).mono (length_nextFit_mono lines _)),
    writes.stores, fun _ member => absurd member not_mem_nil⟩

theorem Writes.append_extend (bins : nextFit length limit lines = bin :: rest)
    (fits : ¬ limit < load length bin + (logLine encode record).length)
    (stays : ¬ (0 < writer.bytes ∧
      writer.maxBytes < writer.bytes.saturatingAdd (logLine encode record).length)) :
    ∃ next disk, writer.append encode { tree := tree } record = .ok (next, disk) ∧
      Appended directory name start maxBytes maxFiles limit lines (logLine encode record) next
        disk := by
  obtain ⟨plain, holds⟩ := writes.holds short (logLine encode record) bins
  obtain ⟨disk, appends, final⟩ := holds.appendLine plain (logLine encode record)
  refine ⟨{ writer with bytes := writer.bytes.saturatingAdd (logLine encode record).length }, disk,
    ?_, ⟨writes.path, writes.maxBytes_eq, writes.maxFiles_eq, ?_, ?_⟩, final.past⟩
  · unfold append
    rw [if_neg stays]
    show (Disk.perform { tree := tree } (·.appendFile writer.path _)).bind _ = _
    rw [writes.path, appends]
    rfl
  · intro current newest
    rw [lastFiles_extend bins fits] at newest
    cases newest
    rw [length_append, length_flatten_eq_load]
    exact writes.bytes_add bins _
  · rw [lastFiles_extend bins fits]
    exact final.now

end

section

variable (writes : Writes directory name start maxBytes maxFiles limit lines writer tree)
  (several : 1 ≤ maxFiles) (directoryThere : start.isDir directory = true)
  (short : ∀ line ∈ lines, line.length ≤ limit)

include writes several directoryThere short

theorem Writes.rotate (bins : nextFit length limit lines = bin :: rest) {line : List UInt8}
    (full : limit < load length bin + line.length) :
    ∃ rotated, writer.rotate { tree := tree } = .ok ({ writer with bytes := 0 }, rotated) ∧
      Passing limit maxFiles lines line
        (fun index => ([] :: lastFiles limit maxFiles lines)[index]?) ∧
      rotated.Holds directory name start (Passing limit maxFiles lines line)
        fun index => ([] :: lastFiles limit maxFiles lines)[index]? := by
  have keeps : LogFiles limit maxFiles (nextFit length limit lines).length lines.flatten
      (lastFiles limit maxFiles lines) := logFiles_lastFiles short (Nat.le_succ _)
  have needed : (nextFit length limit (lines ++ [line])).length =
      (nextFit length limit lines).length + 1 := by
    rw [nextFit_snoc, bins, put, if_pos full]
    rfl
  have kept : (bin.flatten :: (rest.take maxFiles).map flatten).take writer.maxFiles =
      lastFiles limit maxFiles lines := by
    rw [writes.maxFiles_eq, ← lastFiles_of_cons bins, take_lastFiles]
  obtain ⟨plain, holds⟩ := writes.holds short line bins
  obtain ⟨rotated, rotating, held⟩ := holds.rotate writes.path
    (writes.maxFiles_eq.symm ▸ several) directoryThere
    (by rw [writes.maxFiles_eq, length_map]; exact length_take_le _ _) plain
    (by
      rw [kept]
      exact fun gap => ⟨_, gap, rfl, keeps.mono (by omega)⟩)
  rw [kept] at held
  refine ⟨rotated, rotating, passing_plain ?_, held⟩
  rw [needed]
  refine keeps.nil_cons ?_
  unfold lastFiles
  rw [length_map]
  exact length_take_le _ _

theorem Writes.append_start (bins : nextFit length limit lines = bin :: rest)
    (full : limit < load length bin + (logLine encode record).length)
    (rotates : 0 < writer.bytes ∧
      writer.maxBytes < writer.bytes.saturatingAdd (logLine encode record).length) :
    ∃ next disk, writer.append encode { tree := tree } record = .ok (next, disk) ∧
      Appended directory name start maxBytes maxFiles limit lines (logLine encode record) next
        disk := by
  obtain ⟨rotated, rotating, emptied, held⟩ :=
    writes.rotate several directoryThere short bins full
  obtain ⟨disk, appends, final⟩ := held.appendLine emptied (logLine encode record)
  refine ⟨{ writer with bytes := (0 : U64).saturatingAdd (logLine encode record).length }, disk,
    ?_, ⟨writes.path, writes.maxBytes_eq, writes.maxFiles_eq, ?_, ?_⟩, final.past⟩
  · unfold append
    rw [if_pos rotates, rotating]
    show (rotated.perform (·.appendFile writer.path _)).bind _ = _
    rw [writes.path, appends]
    rfl
  · intro current newest
    rw [lastFiles_start bins full] at newest
    cases newest
    rw [Word.saturatingAdd_val]
    exact congrArg (min · _) (zero_add _)
  · rw [lastFiles_start bins full]
    exact final.now

theorem Writes.append (own : (logLine encode record).length ≤ limit)
    (decides : Decides maxBytes limit lines (logLine encode record)) :
    ∃ next disk, writer.append encode { tree := tree } record = .ok (next, disk) ∧
      Appended directory name start maxBytes maxFiles limit lines (logLine encode record) next
        disk := by
  obtain ⟨bin, rest, bins⟩ := exists_cons_of_ne_nil
    (@nextFit_ne_nil _ length limit lines)
  have rotates := writes.rotates_iff bins own decides
  by_cases full : limit < load length bin + (logLine encode record).length
  · exact writes.append_start several directoryThere short bins full (rotates.mpr full)
  · exact writes.append_extend short bins full (mt rotates.mp full)

end

/-! ### A whole run -/

def Kept (directory : TreePath) (name : String) (start : LogTree) (limit maxFiles needed : Nat)
    (moment : Moment) : Prop :=
  ∃ files gap, LogFiles limit maxFiles needed moment.appended files ∧
    Stores directory name start (holed files gap) moment.tree

variable {needed : Nat}

theorem Writes.kept
    (writes : Writes directory name start maxBytes maxFiles limit lines writer tree)
    (short : ∀ line ∈ lines, line.length ≤ limit)
    (order : (nextFit length limit lines).length ≤ needed) :
    Kept directory name start limit maxFiles needed ⟨lines.flatten, tree⟩ := by
  refine ⟨lastFiles limit (maxFiles + 1) lines, (lastFiles limit (maxFiles + 1) lines).length,
    (logFiles_lastFiles short le_rfl).mono order, ?_⟩
  rw [holed_of_length_le le_rfl]
  exact writes.stores

theorem Appended.kept {line : List UInt8}
    (appended : Appended directory name start maxBytes maxFiles limit lines line writer disk)
    (short : ∀ other ∈ lines ++ [line], other.length ≤ limit)
    (order : (nextFit length limit (lines ++ [line])).length ≤ needed) :
    ∀ moment ∈ disk.past.map (Moment.mk lines.flatten) ++
        [⟨(lines ++ [line]).flatten, disk.tree⟩],
      Kept directory name start limit maxFiles needed moment := by
  intro moment listed
  rcases mem_append.mp listed with passed | now
  · obtain ⟨held, before, rfl⟩ := mem_map.mp passed
    obtain ⟨slots, ⟨files, gap, rfl, keeps⟩, stored⟩ := appended.past held before
    exact ⟨files, gap, keeps.mono order, stored⟩
  · rw [mem_singleton.mp now]
    exact appended.writes.kept short order

theorem Writes.watch {records : List DiagnosticRecord} {all : List (List UInt8)}
    (writes : Writes directory name start maxBytes maxFiles limit lines writer tree)
    (several : 1 ≤ maxFiles) (directoryThere : start.isDir directory = true)
    (whole : lines ++ records.map (logLine encode) = all)
    (short : ∀ line ∈ all, line.length ≤ limit)
    (decides : ∀ before line after, all = before ++ line :: after →
      Decides maxBytes limit before line) :
    ∃ moments, watch encode writer tree lines.flatten records = .ok moments ∧
      (∀ moment ∈ moments, Kept directory name start limit maxFiles
        (nextFit length limit all).length moment) ∧
      ∃ last ∈ Moment.mk lines.flatten tree :: moments, Stores directory name start
        (fun index => (lastFiles limit (maxFiles + 1) all)[index]?) last.tree := by
  induction records generalizing writer tree lines with
  | nil =>
    rw [map_nil, append_nil] at whole
    subst whole
    exact ⟨[], rfl, fun _ member => absurd member not_mem_nil, _, mem_cons_self,
      writes.stores⟩
  | cons record rest hypothesis =>
    rw [map_cons] at whole
    have joined : (lines ++ [logLine encode record]) ++ rest.map (logLine encode) = all := by
      rw [append_assoc]
      exact whole
    have shortSoFar : ∀ line ∈ lines ++ [logLine encode record], line.length ≤ limit :=
      fun line member => short line (joined ▸ mem_append_left _ member)
    obtain ⟨next, disk, appends, appended⟩ := writes.append several directoryThere
      (fun line member => shortSoFar line (mem_append_left _ member))
      (shortSoFar _ mem_concat_self)
      (decides lines _ _ whole.symm)
    obtain ⟨later, watches, kept, last, member, stores⟩ :=
      hypothesis appended.writes joined
    have flattened : (lines ++ [logLine encode record]).flatten =
        lines.flatten ++ logLine encode record := by
      rw [flatten_append, flatten_singleton]
    have now := appended.kept shortSoFar (joined ▸ length_nextFit_mono _ _)
    rw [flattened] at watches member now
    refine ⟨disk.past.map (Moment.mk lines.flatten) ++
      ⟨lines.flatten ++ logLine encode record, disk.tree⟩ :: later, ?_, fun moment listed => ?_,
      last, mem_cons_of_mem _ (mem_append_right _ member), stores⟩
    · unfold EbpfStudio.watch
      rw [appends]
      show (EbpfStudio.watch encode next disk.tree _ rest).bind _ = _
      rw [watches]
      rfl
    · rw [append_cons] at listed
      exact (mem_append.mp listed).elim (now moment) (kept moment)

end Append

end Tree

/-! ### When the limit on the number of files holds -/

structure EmptyDirectory (tree : LogTree) (directory : TreePath) : Prop where
  there : tree.isDir directory = true
  made : tree.createDirAll directory = some tree
  empty : tree.readDir directory = []

/-- The limit at which files are started. Sizes are not compared with the largest number. -/
def startingLimit (maxBytes : U64) (lines : List (List UInt8)) : Nat :=
  if maxBytes.val = 2 ^ 64 - 1 then max maxBytes.val (load List.length lines) else maxBytes.val

variable {maxBytes : U64}

theorem decides_startingLimit {all before after : List (List UInt8)} {line : List UInt8}
    (whole : all = before ++ line :: after) :
    Decides maxBytes (startingLimit maxBytes all) before line := by
  intro bin newest
  have largest := maxBytes.isLt
  obtain ⟨rest, bins⟩ := head?_eq_some_iff.mp newest
  have opened := load_newest_le bins
  have total : load length before + line.length ≤ load length all := by
    rw [whole, append_cons, load_append, load_append]
    simp [load]
  unfold startingLimit
  split
  · omega
  · omega

theorem startingLimit_eq {lines : List (List UInt8)}
    (light : maxBytes.val = 2 ^ 64 - 1 → load length lines ≤ maxBytes.val) :
    startingLimit maxBytes lines = maxBytes.val := by
  unfold startingLimit
  split
  · rename_i largest
    exact max_eq_left (light largest)
  · rfl

theorem load_le_startingLimit (largest : maxBytes.val = 2 ^ 64 - 1) (lines : List (List UInt8)) :
    load length lines ≤ startingLimit maxBytes lines := by
  unfold startingLimit
  rw [if_pos largest]
  exact le_max_right _ _

theorem le_startingLimit (maxBytes : U64) (lines : List (List UInt8)) :
    maxBytes.val ≤ startingLimit maxBytes lines := by
  unfold startingLimit
  split
  · exact le_max_left _ _
  · exact le_rfl

section Last

variable {directory : TreePath} {name : String} {start tree : LogTree} {limit maxFiles : Nat}
  {lines : List (List UInt8)} {appended : List UInt8} {maxBytes : Nat}

section

variable
  (stores : Stores directory name start
      (fun index => (lastFiles limit (maxFiles + 1) lines)[index]?) tree)

include stores

theorem Stores.length_nextFit_le (empty : start.readDir directory = [])
    (within : WithinBudget (directory ++ [name]) maxBytes maxFiles ⟨appended, tree⟩) :
    (nextFit length limit lines).length ≤ maxFiles := by
  have count := within.count
  rw [← holed_of_length_le le_rfl] at stores
  rw [dropLast_concat, stores.length_readDir empty, lastFiles, length_map,
    length_take] at count
  omega

theorem Stores.load_le (fits : load length lines ≤ limit)
    (within : WithinBudget (directory ++ [name]) maxBytes maxFiles ⟨appended, tree⟩) :
    load length lines ≤ maxBytes := by
  have held := stores.slot 0
  have read := stores.readFile_eq 0
  rw [lastFiles_of_cons (nextFit_group fits)] at held read
  have listed : name ∈ tree.readDir directory := by
    rw [mem_readDir, show tree.lookup (directory ++ [name]) = _ from held]
    rfl
  obtain ⟨contents, found, small⟩ := within.sizes name (by rw [dropLast_concat]; exact listed)
  rw [dropLast_concat, show tree.readFile (directory ++ [name]) = _ from read] at found
  cases found
  rw [← length_flatten_eq_load]
  exact small

end

end Last

section Empty

variable {directory : TreePath} {start : LogTree} (empty : EmptyDirectory start directory)
  (name : String)

include empty

theorem stores_empty : Stores directory name start (fun _ => none) start where
  slot index := by
    rw [slotPath_eq, Option.map_none, ← Option.not_isSome_iff_eq_none]
    intro there
    have listed := mem_readDir.mpr there
    rw [empty.empty] at listed
    cases listed
  other _ _ := rfl

theorem writes_withLimits {maxBytes : U64} (positive : 1 ≤ maxBytes) {maxFiles : Nat}
    (several : 1 ≤ maxFiles) (limit : Nat) :
    ∃ writer tree, withLimits (directory ++ [name]) maxBytes maxFiles start =
        .ok (writer, tree) ∧
      Writes directory name start maxBytes maxFiles limit [] writer tree := by
  obtain ⟨tree, opens, stores⟩ := (stores_empty empty name).openAppend empty.there rfl
  have files : lastFiles limit (maxFiles + 1) [] = [[]] := by
    unfold lastFiles nextFit
    rw [foldl_nil, take_succ_cons, take_nil]
    rfl
  have slots : Function.update (fun _ => none : Slots) 0 (some []) =
      fun index => ([[]] : List (List UInt8))[index]? := by
    funext index
    cases index <;> rfl
  rw [slots] at stores
  have length : ((tree.readFile (directory ++ [name])).getD []).length = 0 := by
    rw [show tree.readFile (directory ++ [name]) = some [] from stores.readFile_eq 0]
    rfl
  refine ⟨⟨directory ++ [name], Word.ofNat 64 0, max maxBytes 1, max maxFiles 1⟩, tree, ?_,
    rfl, max_eq_left positive, max_eq_left several, ?_, files ▸ stores⟩
  · unfold withLimits
    rw [dropLast_concat, empty.made]
    show (openAppend start (directory ++ [name]) []).bind _ = _
    rw [opens]
    show Except.ok (mk _ (Word.ofNat 64 _) _ _, tree) = _
    rw [length]
  · intro current newest
    rw [files] at newest
    cases newest
    rfl

end Empty

theorem exists_logMoments {encode : DiagnosticRecord → List UInt8} {directory : TreePath}
    {start : LogTree} (empty : EmptyDirectory start directory) (name : String) {maxBytes : U64}
    (positive : 1 ≤ maxBytes) {maxFiles : Nat} (several : 1 ≤ maxFiles)
    {records : List DiagnosticRecord} {lines : List (List UInt8)}
    (linesAre : records.map (logLine encode) = lines)
    (short : ∀ line ∈ lines, line.length ≤ maxBytes.val) :
    ∃ moments, logMoments encode (directory ++ [name]) maxBytes maxFiles start records =
        .ok moments ∧
      (∀ moment ∈ moments, Kept directory name start (startingLimit maxBytes lines) maxFiles
        (nextFit length (startingLimit maxBytes lines) lines).length moment) ∧
      ∃ last ∈ moments, Stores directory name start
        (fun index => (lastFiles (startingLimit maxBytes lines) (maxFiles + 1) lines)[index]?)
        last.tree := by
  obtain ⟨writer, tree, creates, writes⟩ :=
    writes_withLimits empty name positive several (startingLimit maxBytes lines)
  obtain ⟨later, watches, kept, last, member, stores⟩ :=
    writes.watch several empty.there ((nil_append _).trans linesAre)
      (fun line member => (short line member).trans (le_startingLimit _ _))
      (fun before line after whole => decides_startingLimit whole)
  refine ⟨⟨[], tree⟩ :: later, ?_, fun moment listed => ?_, last, member, stores⟩
  · unfold logMoments
    rw [creates]
    show (watch encode writer tree [] records).bind _ = _
    rw [show watch encode writer tree [] records = _ from watches]
    rfl
  · rcases mem_cons.mp listed with rfl | after
    · exact writes.kept (fun _ member => absurd member not_mem_nil)
        (length_nextFit_mono [] lines)
    · exact kept moment after

/-- A log that starts in an empty directory, with lines that are each within the limit on the size,
has at every moment no more files than it is given, none too long and together the end of what was
appended, if and only if the lines can be divided in their order into that many files within the
size; where the size is the largest number, into one. -/
theorem log_within_budget_iff (encode : DiagnosticRecord → List UInt8) (directory : TreePath)
    (name : String) (start : LogTree) (empty : EmptyDirectory start directory) (maxBytes : U64)
    (positive : 1 ≤ maxBytes) (maxFiles : Nat) (several : 1 ≤ maxFiles)
    (records : List DiagnosticRecord)
    (short : ∀ record ∈ records, (logLine encode record).length ≤ maxBytes.val) :
    ∃ moments, logMoments encode (directory ++ [name]) maxBytes maxFiles start records =
        .ok moments ∧
      ((∀ moment ∈ moments,
          WithinBudget (directory ++ [name]) maxBytes.val maxFiles moment) ↔
        Fits List.length maxBytes.val maxFiles (records.map (logLine encode)) ∧
          (maxBytes.val = 2 ^ 64 - 1 →
            Fits List.length maxBytes.val 1 (records.map (logLine encode)))) ∧
      (maxBytes.val < 2 ^ 64 - 1 → ∀ moment ∈ moments,
        WithinBudget (directory ++ [name]) maxBytes.val (maxFiles + 1) moment) := by
  generalize linesAre : records.map (logLine encode) = lines
  have shortLines : ∀ line ∈ lines, line.length ≤ maxBytes.val := by
    intro line member
    obtain ⟨record, listed, rfl⟩ := mem_map.mp (linesAre ▸ member)
    exact short record listed
  obtain ⟨moments, runs, all, last, member, stores⟩ :=
    exists_logMoments empty name positive several linesAre shortLines
  refine ⟨moments, runs, ⟨fun budget => ?_, fun ⟨fits, one⟩ moment listed => ?_⟩,
    fun limited moment listed => ?_⟩
  · -- the last moment has the last files of the packing of all lines
    have within := budget last member
    have light : maxBytes.val = 2 ^ 64 - 1 → load length lines ≤ maxBytes.val :=
      fun largest => stores.load_le (load_le_startingLimit largest lines) within
    rw [startingLimit_eq light] at stores
    exact ⟨(fits_iff several shortLines).mpr (stores.length_nextFit_le empty.empty within),
      fun largest => fits_one_iff.mpr (light largest)⟩
  · rw [startingLimit_eq fun largest => fits_one_iff.mp (one largest)] at all
    obtain ⟨files, gap, keeps, held⟩ := all moment listed
    exact held.withinBudget empty.empty
      (keeps.least.trans ((fits_iff several shortLines).mp fits)) keeps.small keeps.ends
  · rw [startingLimit_eq fun largest => absurd largest (ne_of_lt limited)] at all
    obtain ⟨files, gap, keeps, held⟩ := all moment listed
    exact held.withinBudget empty.empty keeps.few keeps.small keeps.ends

def startRecord : DiagnosticRecord where
  schemaVersion := schemaVersion
  tsUnixMs := 0
  level := .info
  component := "host"
  event := "session_started"
  sessionId := "s1"
  outcome := "ok"
  code := ""

/-- Two lines of two bytes, with a rotation between them, are within limits of two files. -/
theorem log_within_budget_iff_rotated :
    ∃ moments, logMoments (fun _ => [0]) ["host.jsonl"] 2 2 ∅ [startRecord, startRecord] =
        .ok moments ∧
      ∀ moment ∈ moments, WithinBudget ["host.jsonl"] 2 2 moment := by
  obtain ⟨moments, run, budget, -⟩ := log_within_budget_iff (fun _ => [0]) [] "host.jsonl" ∅
    ⟨rfl, rfl, rfl⟩ 2 (by decide) 2 (by decide) [startRecord, startRecord] (by decide)
  have fits : Fits length 2 2 [[(0 : UInt8), 10], [0, 10]] :=
    ⟨[[[0, 10]], [[0, 10]]], rfl, le_rfl, by decide⟩
  exact ⟨moments, run, budget.mpr ⟨fits, fun largest => absurd largest (by decide)⟩⟩

/-- Two lines of two bytes are in two files, though there may be only one. -/
theorem log_keeps_one_file_too_many :
    ∃ moments, logMoments (fun _ => [0]) ["host.jsonl"] 2 1 ∅ [startRecord, startRecord] =
        .ok moments ∧
      ∃ moment ∈ moments, moment.tree.readDir [] = ["host.jsonl", "host.1.jsonl"] ∧
        ¬ WithinBudget ["host.jsonl"] 2 1 moment := by
  have last : (logMoments (fun _ => [0]) ["host.jsonl"] 2 1 ∅ [startRecord, startRecord]).map
      (fun moments => moments.getLast?.map fun moment => moment.tree.readDir []) =
        .ok (some ["host.jsonl", "host.1.jsonl"]) := by
    decide +kernel
  cases run : logMoments (fun _ => [0]) ["host.jsonl"] 2 1 ∅ [startRecord, startRecord] with
  | error failure =>
    rw [run] at last
    cases last
  | ok moments =>
    rw [run] at last
    obtain ⟨moment, final, listed⟩ := Option.map_eq_some_iff.mp (Except.ok.inj last)
    refine ⟨moments, rfl, moment, mem_of_getLast? final, listed, fun within => ?_⟩
    have count : (moment.tree.readDir []).length ≤ 1 := within.count
    rw [listed] at count
    exact absurd count (by decide)

end EbpfStudio
