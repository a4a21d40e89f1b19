/-
This file models the rotating log of diagnostics and proves how many files it keeps.

A record that would make the current file too long starts a new one. Before that, the old files move
up by one name each and the last one is removed. A reader may look at any moment, so the moves are
followed one by one through the tree of files (`Disk.Holds`): while they move, one slot between the
files is free (`holed`).
-/

import EbpfStudio.Desktop.Diagnostics
import EbpfStudio.Library.FileTree
import EbpfStudio.Library.Packing

namespace EbpfStudio

open FileTree Packing List Option Table Function

/-! ### Names of rotated files -/

/-- The stem and the extension of a file name. A dot at the beginning alone does not start an
extension. -/
def splitAtDot (name : List Char) : List Char × Option (List Char) :=
  match name.reverse.dropWhile (· ≠ '.') with
  | [] => (name, none)
  | _ :: before =>
    if before.isEmpty then (name, none)
    else (before.reverse, some (name.reverse.takeWhile (· ≠ '.')).reverse)

def rotatedName (name : Option String) (index : Nat) : String :=
  let stem := name.elim "log" fun name => String.ofList (splitAtDot name.toList).1
  let extension := (name.bind fun name => (splitAtDot name.toList).2).elim "jsonl" String.ofList
  stem ++ "." ++ toString index ++ "." ++ extension

def rotatedPath (path : TreePath) (index : Nat) : TreePath :=
  path.dropLast ++ [rotatedName path.getLast? index]

/-! ### The log -/

abbrev LogTree := FileTree (List UInt8)

structure Disk where
  tree : LogTree
  past : List LogTree := []

def Disk.perform (disk : Disk) (operation : LogTree → Except FileError LogTree) :
    Except FileError Disk := do
  let tree ← operation disk.tree
  return { tree := tree, past := disk.past ++ [disk.tree] }

/-- A log with its limits. -/
structure RotatingJsonl where
  path : TreePath
  bytes : U64
  maxBytes : U64
  maxFiles : Nat

namespace RotatingJsonl

def withLimits (path : TreePath) (maxBytes : U64) (maxFiles : Nat) (tree : LogTree) :
    Except FileError (RotatingJsonl × LogTree) := do
  let tree ← (tree.createDirAll path.dropLast).elim (.error .notADirectory) .ok
  let tree ← tree.openAppend path []
  let bytes := Word.ofNat 64 ((tree.readFile path).getD []).length
  return ({ path := path, bytes := bytes, maxBytes := max maxBytes 1, maxFiles := max maxFiles 1 },
    tree)

def clear (disk : Disk) (path : TreePath) : Except FileError Disk :=
  if disk.tree.pathExists path then disk.perform (·.removeFile path) else .ok disk

def shift (path : TreePath) (disk : Disk) (index : Nat) : Except FileError Disk := do
  let source := rotatedPath path index
  let destination := rotatedPath path (index + 1)
  if disk.tree.pathExists source then
    let disk ← clear disk destination
    disk.perform (·.renameFile source destination)
  else return disk

/-- Move the files up by one name and start a new one. -/
def rotate (writer : RotatingJsonl) (disk : Disk) : Except FileError (RotatingJsonl × Disk) := do
  let disk ← (List.range' 1 (writer.maxFiles - 1)).reverse.foldlM (shift writer.path) disk
  let first := rotatedPath writer.path 1
  let disk ← clear disk first
  let disk ← if disk.tree.pathExists writer.path then
      disk.perform (·.renameFile writer.path first)
    else pure disk
  let disk ← disk.perform (·.openAppend writer.path [])
  return ({ writer with bytes := 0 }, disk)

end RotatingJsonl

def logLine (encode : DiagnosticRecord → List UInt8) (record : DiagnosticRecord) : List UInt8 :=
  encode (appendedRecord record) ++ [10]

def RotatingJsonl.append (encode : DiagnosticRecord → List UInt8) (writer : RotatingJsonl)
    (disk : Disk) (record : DiagnosticRecord) : Except FileError (RotatingJsonl × Disk) := do
  let json := logLine encode record
  let (writer, disk) ←
    if 0 < writer.bytes ∧ writer.maxBytes < writer.bytes.saturatingAdd json.length then
      writer.rotate disk
    else pure (writer, disk)
  let disk ← disk.perform (·.appendFile writer.path json)
  return ({ writer with bytes := writer.bytes.saturatingAdd json.length }, disk)

/-! ### The moments of a log -/

/-- A tree at some time, with the bytes of the records that were appended until then. -/
structure Moment where
  appended : List UInt8
  tree : LogTree

def watch (encode : DiagnosticRecord → List UInt8) (writer : RotatingJsonl) (tree : LogTree)
    (appended : List UInt8) : List DiagnosticRecord → Except FileError (List Moment)
  | [] => .ok []
  | record :: rest => do
    let (writer, disk) ← writer.append encode { tree := tree } record
    let more := appended ++ logLine encode record
    let later ← watch encode writer disk.tree more rest
    return disk.past.map (Moment.mk appended) ++ ⟨more, disk.tree⟩ :: later

/-- The trees that a reader may see. -/
def logMoments (encode : DiagnosticRecord → List UInt8) (path : TreePath) (maxBytes : U64)
    (maxFiles : Nat) (start : LogTree) (records : List DiagnosticRecord) :
    Except FileError (List Moment) := do
  let (writer, tree) ← RotatingJsonl.withLimits path maxBytes maxFiles start
  let later ← watch encode writer tree [] records
  return ⟨[], tree⟩ :: later

def slotPath (path : TreePath) : Nat → TreePath
  | 0 => path
  | index + 1 => rotatedPath path (index + 1)

def logged (path : TreePath) (maxFiles : Nat) (tree : LogTree) : List UInt8 :=
  ((List.range (maxFiles + 1)).reverse.filterMap fun index =>
    tree.readFile (slotPath path index)).flatten

/-- The log keeps to its limits: no more files than there may be, none of them too long, and
from the oldest to the newest they are the end of what was appended. -/
structure WithinBudget (path : TreePath) (maxBytes maxFiles : Nat) (moment : Moment) : Prop where
  count : (moment.tree.readDir path.dropLast).length ≤ maxFiles
  sizes : ∀ name ∈ moment.tree.readDir path.dropLast, ∃ contents,
    moment.tree.readFile (path.dropLast ++ [name]) = some contents ∧ contents.length ≤ maxBytes
  named : ∀ name ∈ moment.tree.readDir path.dropLast, ∃ index ≤ maxFiles,
    path.dropLast ++ [name] = slotPath path index
  suffix : logged path maxFiles moment.tree <:+ moment.appended

/-! ### No two files share a name -/

theorem length_splitAtDot (name : List Char) :
    name.length ≤ (splitAtDot name).1.length + ((splitAtDot name).2.elim 0 fun extension =>
      extension.length + 1) := by
  have parts := congrArg length
    (@takeWhile_append_dropWhile _ (· ≠ '.') name.reverse)
  unfold splitAtDot
  split
  · exact Nat.le_add_right _ _
  · rename_i dot before split
    rw [split, length_append, length_reverse, length_cons] at parts
    split
    · exact Nat.le_add_right _ _
    · simp only [length_reverse, elim_some]
      omega

theorem length_rotatedName (name : String) (index : Nat) :
    name.toList.length < (rotatedName (some name) index).toList.length := by
  have parts := length_splitAtDot name.toList
  unfold rotatedName
  simp only [elim_some, bind_some, String.toList_append, length_append,
    String.toList_ofList, show ".".toList.length = 1 from rfl]
  cases known : (splitAtDot name.toList).2 with
  | none =>
    rw [known, elim_none] at parts
    omega
  | some extension =>
    rw [known, elim_some] at parts
    simp only [elim_some, String.toList_ofList]
    omega

theorem digits_injective {first second : Nat}
    (same : (toString first).toList = (toString second).toList) : first = second := by
  have digits (number : Nat) :
      (10 : Nat).ofDigitChars (toString number).toList 0 = number := by
    rw [show toString number = number.repr from rfl, Nat.repr_eq_ofList_toDigits,
      String.toList_ofList]
    exact Nat.ofDigitChars_toDigits (by decide) le_rfl
  rw [← digits first, same, digits]

theorem rotatedName_injective {name : Option String} {first second : Nat}
    (same : rotatedName name first = rotatedName name second) : first = second := by
  have characters := congrArg String.toList same
  unfold rotatedName at characters
  simp only [String.toList_append] at characters
  rw [append_left_inj, append_left_inj, append_right_inj] at characters
  exact digits_injective characters

def slotName (name : String) : Nat → String
  | 0 => name
  | index + 1 => rotatedName (some name) (index + 1)

theorem slotName_injective (name : String) : Injective (slotName name) := by
  intro first second same
  cases first with
  | zero =>
    cases second with
    | zero => rfl
    | succ second =>
      have longer := length_rotatedName name (second + 1)
      rw [show rotatedName (some name) (second + 1) = name from same.symm] at longer
      exact absurd longer (lt_irrefl _)
  | succ first =>
    cases second with
    | zero =>
      have longer := length_rotatedName name (first + 1)
      rw [show rotatedName (some name) (first + 1) = name from same] at longer
      exact absurd longer (lt_irrefl _)
    | succ second => exact rotatedName_injective same

theorem slotPath_eq (directory : TreePath) (name : String) (index : Nat) :
    slotPath (directory ++ [name]) index = directory ++ [slotName name index] := by
  cases index with
  | zero => rfl
  | succ index =>
    unfold slotPath rotatedPath
    rw [dropLast_concat, getLast?_concat]
    rfl

/-! ### What the tree holds -/

abbrev Slots := Nat → Option (List UInt8)

section Tree

variable {directory : TreePath} {name : String} {start : LogTree}

/-- The files of the log are those in the slots, and the tree is otherwise as it was. -/
structure Stores (directory : TreePath) (name : String) (start : LogTree) (slots : Slots)
    (tree : LogTree) : Prop where
  slot : ∀ index, tree.lookup (slotPath (directory ++ [name]) index) =
    (slots index).map FileNode.file
  other : ∀ path, (∀ index, path ≠ slotPath (directory ++ [name]) index) →
    tree.lookup path = start.lookup path

theorem slotPath_inj {first second : Nat} :
    slotPath (directory ++ [name]) first = slotPath (directory ++ [name]) second ↔
      first = second := by
  rw [slotPath_eq, slotPath_eq, append_right_inj, singleton_inj]
  exact (slotName_injective name).eq_iff

section Stores

variable {slots : Slots} {tree : LogTree}

section

variable (stores : Stores directory name start slots tree) (index : Nat)

include stores

theorem Stores.put {next : LogTree} {contents : Option (List UInt8)}
    (put : ∀ path, next.lookup path =
      if path = slotPath (directory ++ [name]) index then contents.map .file
      else tree.lookup path) :
    Stores directory name start (update slots index contents) next where
  slot other := by
    rw [put, update_apply]
    by_cases same : other = index
    · rw [if_pos (slotPath_inj.mpr same), if_pos same]
    · rw [if_neg (mt slotPath_inj.mp same), if_neg same, stores.slot]
  other path different := by rw [put, if_neg (different index), stores.other path different]

theorem Stores.writeFile (contents : List UInt8) :
    Stores directory name start (update slots index (some contents))
      (tree.writeFile (slotPath (directory ++ [name]) index) contents) :=
  stores.put index fun _ => lookup_insert_eq _ _ _ _

theorem Stores.erase :
    Stores directory name start (update slots index none)
      (tree.erase (slotPath (directory ++ [name]) index)) :=
  stores.put index fun _ => lookup_erase_eq _ _ _

theorem Stores.pathExists_eq :
    tree.pathExists (slotPath (directory ++ [name]) index) = (slots index).isSome := by
  unfold pathExists
  rw [stores.slot, isSome_map, slotPath_eq]
  simp

end

def moved (slots : Slots) (index : Nat) : Slots :=
  Function.update (Function.update slots index none) (index + 1) (slots index)

variable {contents : List UInt8}

section

variable (stores : Stores directory name start slots tree)

include stores

theorem Stores.removeFile {index : Nat} (there : slots index = some contents) :
    ∃ next, tree.removeFile (slotPath (directory ++ [name]) index) = .ok next ∧
      Stores directory name start (update slots index none) next := by
  refine ⟨_, ?_, stores.erase index⟩
  unfold FileTree.removeFile
  rw [stores.slot, there]
  rfl

theorem Stores.renameFile {index : Nat} (there : slots index = some contents)
    (free : slots (index + 1) = none) :
    ∃ next, tree.renameFile (slotPath (directory ++ [name]) index)
        (slotPath (directory ++ [name]) (index + 1)) = .ok next ∧
      Stores directory name start (moved slots index) next := by
  refine ⟨_, ?_, there ▸ (stores.erase index).writeFile (index + 1) contents⟩
  unfold FileTree.renameFile
  rw [stores.slot, stores.slot, there, free]
  rfl

theorem Stores.openAppend (directoryThere : start.isDir directory = true) (free : slots 0 = none) :
    ∃ next, tree.openAppend (directory ++ [name]) [] = .ok next ∧
      Stores directory name start (update slots 0 (some [])) next := by
  have inside : tree.isDir directory = true := by
    have same : tree.lookup directory = start.lookup directory := by
      refine stores.other directory fun index equal => ?_
      have lengths := congrArg length equal
      rw [slotPath_eq, length_append, length_singleton] at lengths
      omega
    unfold isDir at directoryThere ⊢
    rw [same]
    exact directoryThere
  refine ⟨_, ?_, stores.writeFile 0 []⟩
  have absent : tree.lookup (directory ++ [name]) = none :=
    (stores.slot 0).trans (by rw [free]; rfl)
  unfold FileTree.openAppend
  rw [absent, dropLast_concat, inside]
  rfl

theorem Stores.appendFile (there : slots 0 = some contents) (more : List UInt8) :
    ∃ next, tree.appendFile (directory ++ [name]) more = .ok next ∧
      Stores directory name start (update slots 0 (some (contents ++ more))) next := by
  refine ⟨_, ?_, stores.writeFile 0 (contents ++ more)⟩
  have found : tree.lookup (directory ++ [name]) = some (.file contents) :=
    (stores.slot 0).trans (by rw [there]; rfl)
  unfold FileTree.appendFile
  rw [found]
  rfl

end

end Stores

/-! ### A rotation, operation by operation -/

structure Disk.Holds (directory : TreePath) (name : String) (start : LogTree)
    (allowed : Slots → Prop) (slots : Slots) (disk : Disk) : Prop where
  now : Stores directory name start slots disk.tree
  past : ∀ tree ∈ disk.past, ∃ held, allowed held ∧ Stores directory name start held tree

section Rotation

variable {allowed : Slots → Prop} {slots after : Slots} {disk : Disk}

theorem Disk.Holds.perform (holds : disk.Holds directory name start allowed slots)
    (fine : allowed slots) (operation : LogTree → Except FileError LogTree)
    (works : ∃ next, operation disk.tree = .ok next ∧ Stores directory name start after next) :
    ∃ next, disk.perform operation = .ok next ∧
      next.Holds directory name start allowed after := by
  obtain ⟨tree, result, stores⟩ := works
  refine ⟨⟨tree, disk.past ++ [disk.tree]⟩, ?_, stores, fun passed member => ?_⟩
  · unfold Disk.perform
    rw [result]
    rfl
  · rcases mem_append.mp member with before | last
    · exact holds.past passed before
    · rw [mem_singleton.mp last]
      exact ⟨slots, fine, holds.now⟩

theorem Disk.Holds.clear (holds : disk.Holds directory name start allowed slots)
    (fine : allowed slots) (index : Nat) :
    ∃ next, RotatingJsonl.clear disk (slotPath (directory ++ [name]) index) = .ok next ∧
      next.Holds directory name start allowed (update slots index none) := by
  unfold RotatingJsonl.clear
  rw [holds.now.pathExists_eq]
  cases there : slots index with
  | none =>
    have same : update slots index none = slots := by
      rw [← there, update_eq_self]
    rw [same]
    exact ⟨disk, rfl, holds⟩
  | some contents => exact holds.perform fine (·.removeFile _) (holds.now.removeFile there)

theorem moved_update (slots : Slots) (index : Nat) :
    moved (update slots (index + 1) none) index = moved slots index := by
  funext other
  unfold moved
  rw [update_of_ne (Nat.succ_ne_self index).symm]
  by_cases last : other = index + 1
  · rw [last, update_self, update_self]
  · rw [update_of_ne last, update_of_ne last, update_apply,
      update_apply, update_apply, if_neg last]

theorem Disk.Holds.moveOver (holds : disk.Holds directory name start allowed slots)
    (fine : allowed slots) {index : Nat} {contents : List UInt8}
    (there : slots index = some contents)
    (cleared : allowed (update slots (index + 1) none)) :
    ∃ middle next,
      RotatingJsonl.clear disk (slotPath (directory ++ [name]) (index + 1)) = .ok middle ∧
      middle.tree.pathExists (slotPath (directory ++ [name]) index) = true ∧
      middle.perform (·.renameFile (slotPath (directory ++ [name]) index)
        (slotPath (directory ++ [name]) (index + 1))) = .ok next ∧
      next.Holds directory name start allowed (moved slots index) := by
  obtain ⟨middle, clears, held⟩ := holds.clear fine (index + 1)
  have still : update slots (index + 1) none index = some contents := by
    rw [update_of_ne (Nat.succ_ne_self index).symm, there]
  obtain ⟨next, renames, after⟩ := held.perform cleared (·.renameFile _ _)
    (held.now.renameFile still (update_self _ _ _))
  rw [moved_update] at after
  refine ⟨middle, next, clears, ?_, renames, after⟩
  rw [held.now.pathExists_eq, still]
  rfl

/-- The slots of some files, the newest first, with one slot left free between them. -/
def holed (files : List (List UInt8)) (gap : Nat) : Slots := fun index =>
  if index < gap then files[index]? else if index = gap then none else files[index - 1]?

variable {files : List (List UInt8)}

theorem holed_of_length_le {gap : Nat} (beyond : files.length ≤ gap) :
    holed files gap = fun index => files[index]? := by
  funext index
  unfold holed
  split
  · rfl
  · rw [getElem?_eq_none (by omega : files.length ≤ index)]
    split
    · rfl
    · exact getElem?_eq_none (by omega)

theorem moved_holed (files : List (List UInt8)) (gap : Nat) :
    moved (holed files (gap + 1)) gap = holed files gap := by
  funext index
  unfold moved
  rw [update_apply, update_apply]
  unfold holed
  split
  · rename_i next
    rw [next, if_pos (Nat.lt_succ_self gap), if_neg (by omega), if_neg (by omega),
      Nat.add_sub_cancel]
  · split
    · rw [if_neg (by omega)]
    · by_cases below : index < gap
      · rw [if_pos (by omega), if_pos below]
      · rw [if_neg (by omega), if_neg below]

theorem update_holed (files : List (List UInt8)) (gap : Nat) :
    update (holed files gap) gap none = holed files gap := by
  refine update_eq_self_iff.mpr ?_
  unfold holed
  rw [if_neg (lt_irrefl gap), if_pos rfl]

variable {top : Nat}

theorem update_files (few : files.length ≤ top + 2) :
    update (fun index => files[index]?) (top + 1) none =
      holed (files.take (top + 1)) (top + 1) := by
  rw [holed_of_length_le (length_take_le _ _)]
  funext index
  rw [update_apply, getElem?_take]
  split
  · rw [if_neg (by omega)]
  · split
    · rfl
    · exact getElem?_eq_none (by omega)

theorem Disk.Holds.shift (holds : disk.Holds directory name start allowed slots) {index : Nat}
    (fine : allowed slots) (cleared : allowed (update slots (index + 2) none))
    (stays : slots (index + 1) = none → slots = after)
    (moves : moved slots (index + 1) = after) :
    ∃ next, RotatingJsonl.shift (directory ++ [name]) disk (index + 1) = .ok next ∧
      next.Holds directory name start allowed after := by
  have exists_ : disk.tree.pathExists (rotatedPath (directory ++ [name]) (index + 1)) =
      (slots (index + 1)).isSome := holds.now.pathExists_eq (index + 1)
  unfold RotatingJsonl.shift
  dsimp only
  rw [exists_]
  cases there : slots (index + 1) with
  | none =>
    rw [← stays there]
    exact ⟨disk, rfl, holds⟩
  | some contents =>
    obtain ⟨middle, next, clears, -, renames, held⟩ := holds.moveOver fine there cleared
    refine ⟨next, ?_, moves ▸ held⟩
    rw [isSome_some, if_pos rfl,
      show RotatingJsonl.clear disk (rotatedPath _ (index + 1 + 1)) = _ from clears]
    exact renames

variable {files : List (List UInt8)}

theorem Disk.Holds.descend {count : Nat}
    (holds : disk.Holds directory name start allowed (holed files (count + 1)))
    (fine : ∀ gap, allowed (holed files gap)) :
    ∃ next, (List.range' 1 count).reverse.foldlM
        (RotatingJsonl.shift (directory ++ [name])) disk = .ok next ∧
      next.Holds directory name start allowed (holed files 1) := by
  induction count generalizing disk with
  | zero => exact ⟨disk, rfl, holds⟩
  | succ count hypothesis =>
    have stays : holed files (count + 2) (count + 1) = none →
        holed files (count + 2) = holed files (count + 1) := by
      intro absent
      have short : files.length ≤ count + 1 := by
        unfold holed at absent
        rw [if_pos (Nat.lt_succ_self _)] at absent
        exact getElem?_eq_none_iff.mp absent
      rw [holed_of_length_le short, holed_of_length_le (short.trans (Nat.le_succ _))]
    obtain ⟨middle, first, held⟩ := holds.shift (fine _)
      (by rw [update_holed]; exact fine _) stays (moved_holed files (count + 1))
    obtain ⟨next, rest, final⟩ := hypothesis held
    refine ⟨next, ?_, final⟩
    rw [range'_1_concat, reverse_append, reverse_singleton, singleton_append,
      foldlM_cons, add_comm 1 count, first]
    exact rest

variable {older : List (List UInt8)} {current : List UInt8}

theorem Disk.Holds.loop
    (holds : disk.Holds directory name start allowed fun index => (current :: older)[index]?)
    (few : older.length ≤ top + 1) (plain : allowed fun index => (current :: older)[index]?)
    (fine : ∀ gap, allowed (holed ((current :: older).take (top + 1)) gap)) :
    ∃ next held, (List.range' 1 top).reverse.foldlM
        (RotatingJsonl.shift (directory ++ [name])) disk = .ok next ∧
      next.Holds directory name start allowed held ∧ allowed held ∧ held 0 = some current ∧
      allowed (update held 1 none) ∧
      moved held 0 = holed ((current :: older).take (top + 1)) 0 := by
  have short : (current :: older).length ≤ top + 2 := Nat.succ_le_succ few
  have cleared := update_files short
  have moves : moved (fun index => (current :: older)[index]?) top =
      holed ((current :: older).take (top + 1)) top := by
    rw [← moved_update, cleared, moved_holed]
  cases top with
  | zero => exact ⟨disk, _, rfl, holds, plain, rfl, cleared ▸ fine 1, moves⟩
  | succ top =>
    have stays : (current :: older)[top + 1]? = none → (fun index => (current :: older)[index]?) =
        holed ((current :: older).take (top + 2)) (top + 1) := by
      intro absent
      have shorter : (current :: older).length ≤ top + 1 := getElem?_eq_none_iff.mp absent
      rw [take_of_length_le (shorter.trans (Nat.le_succ _)), holed_of_length_le shorter]
    obtain ⟨middle, first, held⟩ := holds.shift plain (cleared ▸ fine _) stays moves
    obtain ⟨next, rest, final⟩ := held.descend fine
    refine ⟨next, _, ?_, final, fine 1, rfl, by rw [update_holed]; exact fine 1, moved_holed _ 0⟩
    rw [range'_1_concat, reverse_append, reverse_singleton, singleton_append,
      foldlM_cons, add_comm 1 top, first]
    exact rest

theorem update_holed_zero (files : List (List UInt8)) (contents : List UInt8) :
    update (holed files 0) 0 (some contents) =
      fun index => (contents :: files)[index]? := by
  funext index
  cases index with
  | zero => rfl
  | succ index => rfl

theorem Disk.Holds.rotate {writer : RotatingJsonl} (path : writer.path = directory ++ [name])
    (several : 1 ≤ writer.maxFiles) (directoryThere : start.isDir directory = true)
    (holds : disk.Holds directory name start allowed fun index => (current :: older)[index]?)
    (few : older.length ≤ writer.maxFiles)
    (plain : allowed fun index => (current :: older)[index]?)
    (fine : ∀ gap, allowed (holed ((current :: older).take writer.maxFiles) gap)) :
    ∃ next, writer.rotate disk = .ok ({ writer with bytes := 0 }, next) ∧
      next.Holds directory name start allowed fun index =>
        ([] :: (current :: older).take writer.maxFiles)[index]? := by
  obtain ⟨top, configured⟩ : ∃ top, writer.maxFiles = top + 1 := ⟨writer.maxFiles - 1, by omega⟩
  rw [configured] at few fine ⊢
  obtain ⟨looped, held, loops, holdsHeld, fineHeld, there, cleared, moves⟩ :=
    holds.loop few plain fine
  obtain ⟨middle, renamed, clears, exists_, renames, holdsMoved⟩ :=
    holdsHeld.moveOver fineHeld there cleared
  rw [moves] at holdsMoved
  obtain ⟨next, opens, final⟩ := holdsMoved.perform (fine 0) (·.openAppend (directory ++ [name]) [])
    (holdsMoved.now.openAppend directoryThere rfl)
  rw [update_holed_zero] at final
  refine ⟨next, ?_, final⟩
  unfold RotatingJsonl.rotate
  rw [configured, Nat.add_sub_cancel, path, loops]
  replace clears : RotatingJsonl.clear looped (rotatedPath (directory ++ [name]) 1) = .ok middle :=
    clears
  replace exists_ : middle.tree.pathExists (directory ++ [name]) = true := exists_
  replace renames : middle.perform (·.renameFile (directory ++ [name])
    (rotatedPath (directory ++ [name]) 1)) = .ok renamed := renames
  show (RotatingJsonl.clear looped (rotatedPath (directory ++ [name]) 1)).bind _ = _
  rw [clears]
  show (if middle.tree.pathExists (directory ++ [name]) then (middle.perform _).bind _ else _) = _
  rw [exists_, if_pos rfl, renames]
  show (renamed.perform _).bind _ = _
  rw [opens]
  rfl

end Rotation

end Tree

end EbpfStudio
