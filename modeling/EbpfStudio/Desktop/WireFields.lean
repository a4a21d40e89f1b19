/-
This file proves that the fields of a protobuf message are read as they were encoded.

A varint is an encoding in groups of seven bits of at most ten bytes, a field is a tag and a value
of one of four wire types, and a message is its fields in a row. Each reader takes from the front
exactly what encodes its value (`Decodes`), so the rule for sequences gives the result about
messages.
-/

import EbpfStudio.Desktop.TraceCut

namespace EbpfStudio

open Base128 Frames List

namespace Wire

/-- A value of one of the supported wire types. -/
inductive WireValue where
  | varint (value : U64)
  | fixed64 (contents : List UInt8) (width : contents.length = 8)
  | bytes (contents : List UInt8) (small : contents.length < 2 ^ 64)
  | fixed32 (contents : List UInt8) (width : contents.length = 4)

def WireValue.type : WireValue → Nat
  | varint _ => 0
  | fixed64 _ _ => 1
  | bytes _ _ => 2
  | fixed32 _ _ => 5

def WireValue.encode : WireValue → List UInt8
  | varint value => Base128.encode value.val
  | fixed64 contents _ | fixed32 contents _ => contents
  | bytes contents _ => Base128.encode contents.length ++ contents

/-- Of a value with a fixed width it is read only that it is there. -/
def WireValue.read : WireValue → FieldValue
  | varint value => .varint value
  | fixed64 _ _ | fixed32 _ _ => .fixed
  | bytes contents _ => .bytes contents

structure WireEntry where
  number : U32
  positive : 0 < number.val
  small : number.val ≤ 0x1fffffff
  value : WireValue

/-- The lowest three bits of the tag are the wire type. -/
def WireEntry.encode (entry : WireEntry) : List UInt8 :=
  Base128.encode (8 * entry.number.val + entry.value.type) ++ entry.value.encode

def WireEntry.read (entry : WireEntry) : Field := ⟨entry.number, entry.value.read⟩

structure EncodesVarint (bytes : List UInt8) (number : Nat) : Prop where
  encodes : Encodes bytes number
  short : bytes.length ≤ 10
  fits : number < 2 ^ 64

inductive EncodesValue : Nat → List UInt8 → FieldValue → Prop
  | varint {bytes : List UInt8} {value : U64} (encodes : EncodesVarint bytes value.val) :
      EncodesValue 0 bytes (.varint value)
  | fixed64 {contents : List UInt8} (width : contents.length = 8) : EncodesValue 1 contents .fixed
  | bytes {length contents : List UInt8} (encodes : EncodesVarint length contents.length) :
      EncodesValue 2 (length ++ contents) (.bytes contents)
  | fixed32 {contents : List UInt8} (width : contents.length = 4) : EncodesValue 5 contents .fixed

inductive EncodesField : List UInt8 → Field → Prop
  | of {id : U32} {wire : Nat} {tag contents : List UInt8} {value : FieldValue}
      (positive : 0 < id.val) (small : id.val ≤ 0x1fffffff)
      (encodes : EncodesVarint tag (8 * id.val + wire))
      (encodesValue : EncodesValue wire contents value) : EncodesField (tag ++ contents) ⟨id, value⟩

variable {bytes data rest : List UInt8}

theorem varint_append {number : Nat} (encodes : EncodesVarint bytes number) (rest : List UInt8) :
    varint (bytes ++ rest) = .ok (⟨number, encodes.fits⟩, rest) :=
  (decodes_varint _ _ _).mpr ⟨bytes, ⟨encodes.encodes, encodes.short⟩, rfl⟩

theorem exists_encodesVarint {read : U64 × List UInt8} (taken : varint data = .ok read) :
    ∃ bytes, EncodesVarint bytes read.1.val ∧ data = bytes ++ read.2 := by
  obtain ⟨bytes, ⟨encodes, short⟩, split⟩ := (decodes_varint _ _ _).mp taken
  exact ⟨bytes, ⟨encodes, short, read.1.isLt⟩, split⟩

theorem decodes_fieldValue (wire : Nat) : Decodes (fieldValue wire) (EncodesValue wire) := by
  intro data value rest
  constructor
  · intro taken
    unfold fieldValue at taken
    split at taken
    · obtain ⟨number, found, same⟩ := exists_of_bind_eq_ok taken
      obtain ⟨bytes, encodes, rfl⟩ := exists_encodesVarint found
      cases same
      exact ⟨bytes, .varint encodes, rfl⟩
    · obtain ⟨length, found, same⟩ := exists_of_bind_eq_ok taken
      obtain ⟨bytes, encodes, rfl⟩ := exists_encodesVarint found
      dsimp only at same
      split at same <;> cases same
      rename_i enough
      refine ⟨bytes ++ length.2.take length.1.val, .bytes ?_, ?_⟩
      · rwa [length_take, Nat.min_eq_left enough]
      · rw [append_assoc, take_append_drop]
    · split at taken <;> cases taken
      rename_i enough
      exact ⟨data.take 8, .fixed64 (length_take_of_le enough), (take_append_drop 8 data).symm⟩
    · split at taken <;> cases taken
      rename_i enough
      exact ⟨data.take 4, .fixed32 (length_take_of_le enough), (take_append_drop 4 data).symm⟩
    · cases taken
  · rintro ⟨bytes, encoded, rfl⟩
    cases encoded with
    | varint encodes =>
      show (varint (bytes ++ rest)).bind _ = _
      rw [varint_append encodes]
      rfl
    | @bytes length contents encodes =>
      show (varint (length ++ contents ++ rest)).bind _ = _
      rw [append_assoc, varint_append encodes]
      show (if contents.length ≤ (contents ++ rest).length then _ else _) = _
      rw [if_pos (by simp), take_left, drop_left]
      rfl
    | fixed64 width =>
      show (if 8 ≤ (bytes ++ rest).length then _ else _) = _
      rw [if_pos (by rw [length_append]; omega), ← width, drop_left]
    | fixed32 width =>
      show (if 4 ≤ (bytes ++ rest).length then _ else _) = _
      rw [if_pos (by rw [length_append]; omega), ← width, drop_left]

theorem EncodesValue.wire_lt {wire : Nat} {value : FieldValue}
    (encodes : EncodesValue wire bytes value) : wire < 8 := by
  cases encodes <;> decide

theorem decodes_field : Decodes field EncodesField := by
  have mask (tag : Nat) : tag &&& 7 = tag % 8 := Nat.and_two_pow_sub_one_eq_mod tag 3
  have shift (tag : Nat) : tag >>> 3 = tag / 8 := Nat.shiftRight_eq_div_pow tag 3
  intro data value rest
  constructor
  · intro taken
    obtain ⟨tag, found, later⟩ := exists_of_bind_eq_ok taken
    obtain ⟨bytes, encodes, rfl⟩ := exists_encodesVarint found
    dsimp only at later
    split at later
    case isTrue => cases later
    case isFalse valid =>
      obtain ⟨read, decoded, same⟩ := exists_of_bind_eq_ok later
      obtain ⟨contents, encodesValue, split⟩ := (decodes_fieldValue _ _ _ _).mp decoded
      cases same
      rw [shift] at valid
      have id : (Word.ofNat 32 (tag.1.val >>> 3)).val = tag.1.val / 8 :=
        (Nat.mod_eq_of_lt (by rw [shift]; omega)).trans (shift _)
      have parts : 8 * (Word.ofNat 32 (tag.1.val >>> 3)).val + (tag.1.val &&& 7) = tag.1.val := by
        rw [id, mask]
        omega
      refine ⟨bytes ++ contents, .of ?_ ?_ (by rwa [parts]) encodesValue, ?_⟩
      · omega
      · omega
      · rw [split, append_assoc]
  · rintro ⟨bytes, ⟨positive, small, encodes, encodesValue⟩, rfl⟩
    rename_i id wire tag contents value
    have three := encodesValue.wire_lt
    show (varint (tag ++ contents ++ rest)).bind _ = _
    rw [append_assoc, varint_append encodes]
    have number : (8 * id.val + wire) >>> 3 = id.val := by
      rw [shift]
      omega
    have type : (8 * id.val + wire) &&& 7 = wire := by
      rw [mask]
      omega
    show (if (8 * id.val + wire) >>> 3 = 0 ∨ 0x1fffffff < (8 * id.val + wire) >>> 3 then _
      else (fieldValue ((8 * id.val + wire) &&& 7) (contents ++ rest)).bind _) = _
    have own : Word.ofNat 32 id.val = id := Fin.ext (Nat.mod_eq_of_lt id.isLt)
    rw [number, type, if_neg (by omega), own,
      (decodes_fieldValue _ _ _ _).mpr ⟨contents, encodesValue, rfl⟩]
    rfl

theorem EncodesField.ne_nil {value : Field} (encodes : EncodesField bytes value) : bytes ≠ [] := by
  cases encodes with
  | of _ _ encodes _ => exact append_ne_nil_of_left_ne_nil encodes.encodes.ne_nil _

theorem encodesVarint_encode {number : Nat} (fits : number < 2 ^ 64) :
    EncodesVarint (Base128.encode number) number :=
  ⟨encodes_encode number, @length_encode 9 number (fits.trans (by decide)), fits⟩

theorem encodesValue_encode (value : WireValue) :
    EncodesValue value.type value.encode value.read := by
  cases value with
  | varint value => exact .varint (encodesVarint_encode value.isLt)
  | fixed64 contents width => exact .fixed64 width
  | bytes contents small => exact .bytes (encodesVarint_encode small)
  | fixed32 contents width => exact .fixed32 width

theorem encodesField_encode (entry : WireEntry) : EncodesField entry.encode entry.read := by
  have encodes := encodesValue_encode entry.value
  have three := encodes.wire_lt
  have small := entry.small
  exact .of entry.positive small (encodesVarint_encode (by omega)) encodes

theorem fields_encode (entries : List WireEntry) :
    fields (entries.flatMap WireEntry.encode) = .ok (entries.map WireEntry.read) := by
  refine (decodes_field.readAll_eq_ok fun _ _ encodes => encodes.ne_nil).mpr
    ⟨entries.map WireEntry.encode, ?_, rfl⟩
  rw [forall₂_map_left_iff, forall₂_map_right_iff, forall₂_same]
  exact fun entry _ => encodesField_encode entry

/-- What was encoded is read back, of an entry with a fixed width only its number. A number is read
if and only if the bytes begin with an encoding of it in ten bytes at most, and fields if and only
if the bytes are encodings of them one after the other. More rounds than bytes change nothing. -/
theorem wire_fields_are_exact (entries : List WireEntry) (data : List UInt8) :
    fields (entries.flatMap WireEntry.encode) = .ok (entries.map WireEntry.read) ∧
    (∀ number rest, varint data = .ok (number, rest) ↔
      ∃ bytes, (Encodes bytes number.val ∧ bytes.length ≤ 10) ∧ data = bytes ++ rest) ∧
    (∀ read, fields data = .ok read ↔
      ∃ parts, Forall₂ EncodesField parts read ∧ data = parts.flatten) ∧
    ∀ rounds, data.length ≤ rounds → readWithin field rounds data = fields data := by
  have nonempty : ∀ bytes value, EncodesField bytes value → bytes ≠ [] := fun _ _ encodes =>
    encodes.ne_nil
  exact ⟨fields_encode entries, decodes_varint data,
    fun _ => decodes_field.readAll_eq_ok nonempty,
    fun _ enough => readWithin_eq (decodes_field.consumes nonempty) le_rfl enough⟩

/-- Two entries that differ in the contents of a fixed width are read alike. -/
theorem fixed_contents_are_not_read : ∃ first second : WireEntry, first ≠ second ∧
    fields ([first].flatMap WireEntry.encode) = fields ([second].flatMap WireEntry.encode) := by
  refine ⟨⟨1, by decide, by decide, .fixed32 [1, 0, 0, 0] rfl⟩,
    ⟨1, by decide, by decide, .fixed32 [2, 0, 0, 0] rfl⟩, by simp, ?_⟩
  rw [fields_encode, fields_encode]
  rfl

end Wire

end EbpfStudio
