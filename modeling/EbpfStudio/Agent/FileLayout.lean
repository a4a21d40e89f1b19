/-
This file models how the agent reads the offsets of file identities from type information.

Members are collected under the names of their structure and of themselves, while several
types may have one name. The offsets of a structure then come from the last type that has
each member, and it is proved when this is one type.
-/

import EbpfStudio.Library.Table

namespace EbpfStudio

open List Option

abbrev BtfName := List UInt8

def btfName (text : String) : BtfName := text.toList.map fun character => .ofNat character.toNat

/-- The structures whose members are collected. -/
inductive BtfOwner where
  | file
  | inode
  | superBlock
  | addressSpace
  | taskStruct
  | filesStruct
  | fdtable
  deriving DecidableEq

namespace BtfOwner

def text : BtfOwner → String
  | file => "file"
  | inode => "inode"
  | superBlock => "super_block"
  | addressSpace => "address_space"
  | taskStruct => "task_struct"
  | filesStruct => "files_struct"
  | fdtable => "fdtable"

def ofName (name : BtfName) : Option BtfOwner :=
  [file, inode, superBlock, addressSpace, taskStruct, filesStruct, fdtable].find? fun owner =>
    btfName owner.text = name

end BtfOwner

def u32At (little : Bool) (bytes : List UInt8) (offset : Nat) : Except String Nat :=
  match (bytes.drop offset).take 4 with
  | [a, b, c, d] =>
    .ok (if little then a.toNat + 2 ^ 8 * b.toNat + 2 ^ 16 * c.toNat + 2 ^ 24 * d.toNat
      else d.toNat + 2 ^ 8 * c.toNat + 2 ^ 16 * b.toNat + 2 ^ 24 * a.toNat)
  | _ => .error "BTF record is truncated"

structure BtfSections where
  little : Bool
  typeStart : Nat
  typeEnd : Nat
  strings : List UInt8

def BtfSections.read (bytes : List UInt8) : Except String BtfSections := do
  if bytes.length < 24 then throw "BTF header is truncated"
  let little ← match bytes with
    | 0x9f :: 0xeb :: _ => .ok true
    | 0xeb :: 0x9f :: _ => .ok false
    | _ => .error "invalid BTF magic"
  let headerLen ← u32At little bytes 4
  let typeStart := headerLen + (← u32At little bytes 8)
  let typeEnd := typeStart + (← u32At little bytes 12)
  let stringStart := headerLen + (← u32At little bytes 16)
  let stringEnd := stringStart + (← u32At little bytes 20)
  if bytes.length < typeEnd || bytes.length < stringEnd then throw "BTF sections exceed input"
  return ⟨little, typeStart, typeEnd, (bytes.take stringEnd).drop stringStart⟩

def BtfSections.stringAt (sections : BtfSections) (utf8 : BtfName → Bool) (offset : Nat) :
    Except String BtfName :=
  let value := sections.strings.drop offset
  let name := value.takeWhile (· ≠ 0)
  if sections.strings.length < offset then
    .error ("invalid BTF string offset " ++ toString offset)
  else if 0 ∉ value then .error "unterminated BTF string"
  else if utf8 name then .ok name
  else .error "BTF name is not UTF-8"

def btfExtraSize (kind vlen : Nat) : Except String Nat :=
  match kind with
  | 1 | 14 | 17 => .ok 4
  | 2 | 7 | 8 | 9 | 10 | 11 | 12 | 16 | 18 => .ok 0
  | 3 => .ok 12
  | 4 | 5 | 15 | 19 => .ok (12 * vlen)
  | 6 | 13 => .ok (8 * vlen)
  | _ => .error ("unsupported BTF kind " ++ toString kind)

def memberOffset (kindFlag : Bool) (raw : Nat) : Option Nat :=
  let bits := if kindFlag then raw % 2 ^ 24 else raw
  if (kindFlag && raw / 2 ^ 24 ≠ 0) || bits % 8 ≠ 0 || 65535 < bits / 8 then none
  else some (bits / 8)

structure BtfDefinition where
  position : Nat
  owner : BtfOwner
  name : BtfName
  offset : Nat
  deriving DecidableEq

section Scan

variable (utf8 : BtfName → Bool) (bytes : List UInt8) (sections : BtfSections) {State : Type}
  (visit : State → BtfDefinition → State)

def readMembers (kindFlag : Bool) (position : Nat) (owner : BtfOwner) :
    Nat → Nat → State → Except String State
  | 0, _, state => .ok state
  | count + 1, member, state => do
    let name ← sections.stringAt utf8 (← u32At sections.little bytes member)
    let raw ← u32At sections.little bytes (member + 8)
    readMembers kindFlag position owner count (member + 12)
      ((memberOffset kindFlag raw).elim state fun offset =>
        visit state ⟨position, owner, name, offset⟩)

def scanType (position : Nat) (state : State) : Except String (Nat × State) := do
  let nameOffset ← u32At sections.little bytes position
  let info ← u32At sections.little bytes (position + 4)
  let kind := info / 2 ^ 24 % 32
  let vlen := info % 2 ^ 16
  let extra ← btfExtraSize kind vlen
  if sections.typeEnd < position + 12 + extra then throw "BTF type payload is truncated"
  if kind = 4 then
    let name ← sections.stringAt utf8 nameOffset
    match BtfOwner.ofName name with
    | some owner =>
      let state ← readMembers utf8 bytes sections visit (info / 2 ^ 31 ≠ 0) position owner vlen
        (position + 12) state
      return (extra, state)
    | none => return (extra, state)
  else return (extra, state)

def scanTypes (position : Nat) (state : State) : Except String State :=
  if position < sections.typeEnd then
    match scanType utf8 bytes sections visit position state with
    | .error error => .error error
    | .ok (extra, state) => scanTypes (position + 12 + extra) state
  else .ok state
termination_by sections.typeEnd - position

end Scan

structure FileIdentityLayout where
  fileInodeOffset : Nat
  inodeSuperblockOffset : Nat
  inodeNumberOffset : Nat
  inodeGenerationOffset : Nat
  superblockDeviceOffset : Nat
  addressSpaceHostOffset : Nat
  taskFilesOffset : Nat
  filesFdtOffset : Nat
  fdtableFdOffset : Nat
  fdtableMaxFdsOffset : Nat
  fileFlagsOffset : Nat
  filePosOffset : Nat
  deriving DecidableEq

def offsetMissing : Nat := 65535

abbrev BtfFields := Table (BtfOwner × BtfName) Nat

namespace BtfFields

def get (fields : BtfFields) (owner : BtfOwner) (member : String) : Option Nat :=
  fields.lookup (owner, btfName member)

def required (fields : BtfFields) (owner : BtfOwner) (member : String) : Except String Nat :=
  match fields.get owner member with
  | some offset => .ok offset
  | none => .error ("BTF field " ++ owner.text ++ "." ++ member ++ " is missing")

def optional (fields : BtfFields) (owner : BtfOwner) (member : String) : Nat :=
  (fields.get owner member).getD offsetMissing

def collect (fields : BtfFields) (definition : BtfDefinition) : BtfFields :=
  fields.insert (definition.owner, definition.name) definition.offset

def layout (fields : BtfFields) : Except String FileIdentityLayout := do
  return {
    fileInodeOffset := ← fields.required .file "f_inode"
    inodeSuperblockOffset := ← fields.required .inode "i_sb"
    inodeNumberOffset := ← fields.required .inode "i_ino"
    inodeGenerationOffset := fields.optional .inode "i_generation"
    superblockDeviceOffset := ← fields.required .superBlock "s_dev"
    addressSpaceHostOffset := fields.optional .addressSpace "host"
    taskFilesOffset := fields.optional .taskStruct "files"
    filesFdtOffset := fields.optional .filesStruct "fdt"
    fdtableFdOffset := fields.optional .fdtable "fd"
    fdtableMaxFdsOffset := fields.optional .fdtable "max_fds"
    fileFlagsOffset := fields.optional .file "f_flags"
    filePosOffset := fields.optional .file "f_pos" }

end BtfFields

section Layout

variable (utf8 : BtfName → Bool) (bytes : List UInt8)

def parseFileIdentityLayout : Except String FileIdentityLayout := do
  let sections ← BtfSections.read bytes
  let fields ← scanTypes utf8 bytes sections BtfFields.collect sections.typeStart ∅
  BtfFields.layout fields

def listDefinition (listed : List BtfDefinition) (definition : BtfDefinition) :
    List BtfDefinition :=
  listed ++ [definition]

def btfDefinitions : Except String (List BtfDefinition) := do
  let sections ← BtfSections.read bytes
  scanTypes utf8 bytes sections listDefinition sections.typeStart []

end Layout

section Related

variable (utf8 : BtfName → Bool) (bytes : List UInt8) (sections : BtfSections)

theorem readMembers_collect (kindFlag : Bool) (position : Nat) (owner : BtfOwner)
    (count member : Nat) (listed : List BtfDefinition) :
    readMembers utf8 bytes sections BtfFields.collect kindFlag position owner count member
        (listed.foldl BtfFields.collect ∅) =
      (readMembers utf8 bytes sections listDefinition kindFlag position owner count member
        listed).map (·.foldl BtfFields.collect ∅) := by
  induction count generalizing member listed with
  | zero => rfl
  | succ count hypothesis =>
    unfold readMembers
    cases u32At sections.little bytes member with
    | error error => rfl
    | ok nameOffset =>
      cases named : sections.stringAt utf8 nameOffset with
      | error error => simp [bind, Except.bind, named, Except.map]
      | ok name =>
        cases u32At sections.little bytes (member + 8) with
        | error error => simp [bind, Except.bind, named, Except.map]
        | ok raw =>
          simp only [bind, Except.bind, named]
          rw [← hypothesis]
          cases memberOffset kindFlag raw with
          | none => rfl
          | some offset =>
            rw [Option.elim, Option.elim, listDefinition, List.foldl_append]
            rfl

theorem scanType_collect (position : Nat) (listed : List BtfDefinition) :
    scanType utf8 bytes sections BtfFields.collect position (listed.foldl BtfFields.collect ∅) =
      (scanType utf8 bytes sections listDefinition position listed).map fun scanned =>
        (scanned.1, scanned.2.foldl BtfFields.collect ∅) := by
  unfold scanType
  cases u32At sections.little bytes position with
  | error error => rfl
  | ok nameOffset =>
    cases u32At sections.little bytes (position + 4) with
    | error error => rfl
    | ok info =>
      dsimp only [bind, Except.bind]
      cases btfExtraSize (info / 2 ^ 24 % 32) (info % 2 ^ 16) with
      | error error => rfl
      | ok extra =>
        dsimp only
        split
        · rfl
        · split
          · cases sections.stringAt utf8 nameOffset with
            | error error => rfl
            | ok name =>
              dsimp only
              cases BtfOwner.ofName name with
              | none => rfl
              | some owner =>
                dsimp only
                rw [readMembers_collect]
                cases readMembers utf8 bytes sections _ _ position owner _ _ listed <;> rfl
          · rfl

theorem scanTypes_collect (position : Nat) (listed : List BtfDefinition) :
    scanTypes utf8 bytes sections BtfFields.collect position (listed.foldl BtfFields.collect ∅) =
      (scanTypes utf8 bytes sections listDefinition position listed).map
        (·.foldl BtfFields.collect ∅) := by
  induction left : sections.typeEnd - position using Nat.strongRecOn
    generalizing position listed with
  | ind _ hypothesis =>
    unfold scanTypes
    split
    · rw [scanType_collect]
      cases scanType utf8 bytes sections listDefinition position listed with
      | error error => rfl
      | ok scanned => exact hypothesis _ (by omega) _ _ rfl
    · rfl

end Related

def lastOffset (definitions : List BtfDefinition) (owner : BtfOwner) (member : String) :
    Option Nat :=
  (definitions.filter fun definition =>
    definition.owner = owner ∧ definition.name = btfName member).getLast?.map (·.offset)

theorem get_collected (definitions : List BtfDefinition) (owner : BtfOwner) (member : String) :
    BtfFields.get (definitions.foldl BtfFields.collect ∅) owner member =
      lastOffset definitions owner member := by
  unfold BtfFields.get lastOffset
  induction definitions using reverseRecOn with
  | nil => rfl
  | append_singleton earlier last hypothesis =>
    rw [foldl_append, filter_append, foldl_cons, foldl_nil, BtfFields.collect,
      Table.lookup_insert_eq]
    by_cases own : last.owner = owner ∧ last.name = btfName member
    · rw [if_pos (Prod.ext own.1.symm own.2.symm), filter_singleton]
      simp [own]
    · rw [if_neg fun same => own ⟨(congrArg Prod.fst same).symm, (congrArg Prod.snd same).symm⟩,
        hypothesis, filter_singleton]
      simp [own]

/-- The members of a structure that are read, and whether the layout has to have them. -/
def BtfOwner.wanted : BtfOwner → List (String × Bool)
  | file => [("f_inode", true), ("f_flags", false), ("f_pos", false)]
  | inode => [("i_sb", true), ("i_ino", true), ("i_generation", false)]
  | superBlock => [("s_dev", true)]
  | addressSpace => [("host", false)]
  | taskStruct => [("files", false)]
  | filesStruct => [("fdt", false)]
  | fdtable => [("fd", false), ("max_fds", false)]

/-- The offset that a layout has for each member, where a member that need not be there may be
missing. -/
def FileIdentityLayout.offsets (layout : FileIdentityLayout) : BtfOwner → List Nat
  | .file => [layout.fileInodeOffset, layout.fileFlagsOffset, layout.filePosOffset]
  | .inode => [layout.inodeSuperblockOffset, layout.inodeNumberOffset,
      layout.inodeGenerationOffset]
  | .superBlock => [layout.superblockDeviceOffset]
  | .addressSpace => [layout.addressSpaceHostOffset]
  | .taskStruct => [layout.taskFilesOffset]
  | .filesStruct => [layout.filesFdtOffset]
  | .fdtable => [layout.fdtableFdOffset, layout.fdtableMaxFdsOffset]

def FileIdentityLayout.returned (layout : FileIdentityLayout) (owner : BtfOwner) :
    List (String × Nat) :=
  ((owner.wanted.zip (layout.offsets owner)).filter fun entry =>
    entry.1.2 || entry.2 ≠ offsetMissing).map fun entry => (entry.1.1, entry.2)

theorem offsets_of_layout {fields : BtfFields} {layout : FileIdentityLayout}
    (laid : fields.layout = .ok layout) (owner : BtfOwner) :
    layout.offsets owner = owner.wanted.map (fun entry => fields.optional owner entry.1) ∧
      ∀ entry ∈ owner.wanted, entry.2 = true → (fields.get owner entry.1).isSome = true := by
  unfold BtfFields.layout BtfFields.required at laid
  cases inode : fields.get .file "f_inode" with
  | none => simp [inode, bind, Except.bind] at laid
  | some inodeOffset =>
    cases superBlock : fields.get .inode "i_sb" with
    | none => simp [inode, superBlock, bind, Except.bind] at laid
    | some superBlockOffset =>
      cases number : fields.get .inode "i_ino" with
      | none => simp [inode, superBlock, number, bind, Except.bind] at laid
      | some numberOffset =>
        cases device : fields.get .superBlock "s_dev" with
        | none => simp [inode, superBlock, number, device, bind, Except.bind] at laid
        | some deviceOffset =>
          simp only [inode, superBlock, number, device, bind, Except.bind, pure, Except.pure,
            Except.ok.injEq] at laid
          subst laid
          cases owner <;>
            simp [FileIdentityLayout.offsets, BtfOwner.wanted, BtfFields.optional, *]

theorem mem_returned_iff {definitions : List BtfDefinition} {layout : FileIdentityLayout}
    (laid : BtfFields.layout (definitions.foldl BtfFields.collect ∅) = .ok layout)
    (owner : BtfOwner) (member : String) (offset : Nat) :
    (member, offset) ∈ layout.returned owner ↔
      ∃ needed, (member, needed) ∈ owner.wanted ∧
        lastOffset definitions owner member = some offset ∧
        (needed = true ∨ offset ≠ offsetMissing) := by
  obtain ⟨offsets, needed⟩ := offsets_of_layout laid owner
  unfold FileIdentityLayout.returned
  rw [offsets, ← List.map_prod_left_eq_zip]
  simp only [List.mem_map, List.mem_filter, Bool.or_eq_true, decide_eq_true_eq, Prod.mk.injEq,
    BtfFields.optional, get_collected] at needed ⊢
  constructor
  · rintro ⟨_, ⟨⟨⟨name, need⟩, wanted, rfl⟩, counts⟩, rfl, rfl⟩
    cases last : lastOffset definitions owner name with
    | some offset =>
      rw [last] at counts
      exact ⟨need, wanted, rfl, counts⟩
    | none =>
      rw [last] at counts
      have known := needed _ wanted
      rw [last] at known
      cases known (counts.resolve_right fun other => other rfl)
  · rintro ⟨need, wanted, last, counts⟩
    refine ⟨((member, need), offset), ⟨⟨(member, need), wanted, ?_⟩, counts⟩, rfl, rfl⟩
    rw [last, Option.getD_some]

/-- The offsets that are returned for every structure are those of one type of its name exactly
when, for every structure, one of its types has each wanted member that any of them has with the
offset that the last of them gives. -/
theorem layout_has_one_definition_iff (utf8 : BtfName → Bool) (bytes : List UInt8)
    {layout : FileIdentityLayout} (accepted : parseFileIdentityLayout utf8 bytes = .ok layout) :
    ∃ definitions, btfDefinitions utf8 bytes = .ok definitions ∧
      ((∀ owner, ∃ position, ∀ entry ∈ layout.returned owner,
          ⟨position, owner, btfName entry.1, entry.2⟩ ∈ definitions) ↔
        ∀ owner, ∃ position, ∀ wanted ∈ owner.wanted, ∀ offset,
          lastOffset definitions owner wanted.1 = some offset →
          (wanted.2 = true ∨ offset ≠ offsetMissing) →
            ⟨position, owner, btfName wanted.1, offset⟩ ∈ definitions) := by
  unfold parseFileIdentityLayout at accepted
  unfold btfDefinitions
  cases read : BtfSections.read bytes with
  | error error =>
    rw [read] at accepted
    cases accepted
  | ok sections =>
    rw [read] at accepted
    dsimp only [bind, Except.bind] at accepted ⊢
    have collected := scanTypes_collect utf8 bytes sections sections.typeStart []
    rw [foldl_nil] at collected
    rw [collected] at accepted
    cases scanned : scanTypes utf8 bytes sections listDefinition sections.typeStart [] with
    | error error =>
      rw [scanned] at accepted
      cases accepted
    | ok definitions =>
      rw [scanned] at accepted
      refine ⟨definitions, rfl, forall_congr' fun owner => exists_congr fun position => ?_⟩
      have returned := mem_returned_iff accepted owner
      constructor
      · intro one wanted member offset last counts
        exact one (wanted.1, offset) ((returned _ _).mpr ⟨wanted.2, member, last, counts⟩)
      · rintro one ⟨member, offset⟩ listed
        obtain ⟨needed, wanted, last, counts⟩ := (returned _ _).mp listed
        exact one (member, needed) wanted offset last counts

def littleEndian (value : Nat) : List UInt8 :=
  [.ofNat value, .ofNat (value / 2 ^ 8), .ofNat (value / 2 ^ 16), .ofNat (value / 2 ^ 24)]

def structBytes (name : Nat) (members : List (Nat × Nat)) : List UInt8 :=
  [name, 2 ^ 26 + members.length, 0].flatMap littleEndian ++
    members.flatMap fun member => [member.1, 0, 8 * member.2].flatMap littleEndian

def btfBytes (types : List (List UInt8)) : List UInt8 :=
  let names := ["", "file", "f_inode", "inode", "i_sb", "i_ino", "super_block", "s_dev"].flatMap
    fun name => btfName name ++ [0]
  [0x9f, 0xeb, 1, 0] ++
    [24, 0, types.flatten.length, types.flatten.length, names.length].flatMap littleEndian ++
    types.flatten ++ names

def isAscii (name : BtfName) : Bool := name.all (· < 128)

def fileTypes : List (List UInt8) :=
  [structBytes 1 [(6, 32)], structBytes 14 [(20, 40), (25, 64)], structBytes 31 [(43, 16)]]

def fileDefinitions : List BtfDefinition :=
  [⟨24, .file, btfName "f_inode", 32⟩, ⟨48, .inode, btfName "i_sb", 40⟩,
    ⟨48, .inode, btfName "i_ino", 64⟩, ⟨84, .superBlock, btfName "s_dev", 16⟩]

def inodeLayout (number : Nat) : FileIdentityLayout where
  fileInodeOffset := 32
  inodeSuperblockOffset := 40
  inodeNumberOffset := number
  inodeGenerationOffset := offsetMissing
  superblockDeviceOffset := 16
  addressSpaceHostOffset := offsetMissing
  taskFilesOffset := offsetMissing
  filesFdtOffset := offsetMissing
  fdtableFdOffset := offsetMissing
  fdtableMaxFdsOffset := offsetMissing
  fileFlagsOffset := offsetMissing
  filePosOffset := offsetMissing

theorem one_inode_has_one_definition :
    ∃ definitions, btfDefinitions isAscii (btfBytes fileTypes) = .ok definitions ∧
      ∀ owner, ∃ position, ∀ wanted ∈ owner.wanted, ∀ offset,
        lastOffset definitions owner wanted.1 = some offset →
        (wanted.2 = true ∨ offset ≠ offsetMissing) →
          ⟨position, owner, btfName wanted.1, offset⟩ ∈ definitions := by
  have accepted : parseFileIdentityLayout isAscii (btfBytes fileTypes) = .ok (inodeLayout 64) := by
    decide +kernel
  obtain ⟨definitions, found, same⟩ := layout_has_one_definition_iff isAscii _ accepted
  have known : btfDefinitions isAscii (btfBytes fileTypes) = .ok fileDefinitions := by
    decide +kernel
  cases known.symm.trans found
  refine ⟨_, found, same.mp fun owner => ?_⟩
  cases owner with
  | file => exact ⟨24, by decide +kernel⟩
  | inode => exact ⟨48, by decide +kernel⟩
  | superBlock => exact ⟨84, by decide +kernel⟩
  | addressSpace | taskStruct | filesStruct | fdtable => exact ⟨0, by decide +kernel⟩

/-- Of two structures with the name of an inode, the superblock is taken from the first and the
number from the second, and neither has both. -/
theorem inode_of_two_definitions :
    let bytes := btfBytes (fileTypes ++ [structBytes 14 [(25, 72)]])
    let definitions := fileDefinitions ++ [⟨108, .inode, btfName "i_ino", 72⟩]
    parseFileIdentityLayout isAscii bytes = .ok (inodeLayout 72) ∧
      btfDefinitions isAscii bytes = .ok definitions ∧
      ¬ ∃ position, ∀ entry ∈ (inodeLayout 72).returned .inode,
        ⟨position, .inode, btfName entry.1, entry.2⟩ ∈ definitions := by
  intro bytes definitions
  refine ⟨by decide +kernel, by decide +kernel, ?_⟩
  rintro ⟨position, all⟩
  have superBlocks : ∀ definition ∈ definitions, definition.offset = 40 →
      definition.position = 48 := by decide +kernel
  have numbers : ∀ definition ∈ definitions, definition.offset = 72 →
      definition.position = 108 := by decide +kernel
  have first : position = 48 := superBlocks _ (all ("i_sb", 40) (by decide +kernel)) rfl
  have second : position = 108 := numbers _ (all ("i_ino", 72) (by decide +kernel)) rfl
  omega

end EbpfStudio
