/-
This file is about reading values from bytes, one after the other, until the bytes end.

A reader takes a value from the front and returns the rest. A framing has items that a reader takes
back from the front of any bytes. A stream of such items that is cut anywhere is read back to the
items that are complete in it, and whether anything is left over tells whether the cut was inside an
item.
-/

import Mathlib

namespace Frames

open List

variable {Byte Error Value State Item : Type}

abbrev Reader (Byte Error Value : Type) := List Byte → Except Error (Value × List Byte)

def Consumes (reader : Reader Byte Error Value) : Prop :=
  ∀ data value rest, reader data = .ok (value, rest) → rest.length < data.length

theorem exists_of_bind_eq_ok {Result : Type} {first : Except Error Value}
    {next : Value → Except Error Result} {result : Result} (ends : first.bind next = .ok result) :
    ∃ value, first = .ok value ∧ next value = .ok result := by
  cases first with
  | error error => cases ends
  | ok value => exact ⟨value, rfl, ends⟩

def readWithin (reader : Reader Byte Error Value) : Nat → List Byte → Except Error (List Value)
  | 0, _ => .ok []
  | rounds + 1, data =>
    if data.isEmpty then .ok []
    else do
      let (value, rest) ← reader data
      let values ← readWithin reader rounds rest
      return value :: values

def readAll (reader : Reader Byte Error Value) (data : List Byte) : Except Error (List Value) :=
  readWithin reader data.length data

section All

variable {reader : Reader Byte Error Value} (consumes : Consumes reader)

include consumes

theorem readWithin_eq {rounds more : Nat} {data : List Byte} (enough : data.length ≤ rounds)
    (order : rounds ≤ more) : readWithin reader more data = readWithin reader rounds data := by
  induction rounds generalizing more data with
  | zero =>
    have empty := eq_nil_of_length_eq_zero (Nat.le_zero.mp enough)
    subst empty
    cases more <;> rfl
  | succ rounds hypothesis =>
    cases more with
    | zero => cases order
    | succ more =>
      unfold readWithin
      cases taken : reader data with
      | error error => rfl
      | ok result =>
        have shorter := consumes data result.1 result.2 taken
        show (if _ then _ else (readWithin reader more result.2).bind _) =
          if _ then _ else (readWithin reader rounds result.2).bind _
        rw [hypothesis (by omega) (Nat.le_of_succ_le_succ order)]

theorem readAll_of_ne_nil {data : List Byte} (nonempty : data ≠ []) :
    readAll reader data = do
      let (value, rest) ← reader data
      let values ← readAll reader rest
      return value :: values := by
  obtain ⟨byte, others, rfl⟩ := exists_cons_of_ne_nil nonempty
  show readWithin reader (others.length + 1) (byte :: others) = _
  unfold readWithin
  rw [if_neg (by simp)]
  cases taken : reader (byte :: others) with
  | error error => rfl
  | ok result =>
    have shorter := consumes _ result.1 result.2 taken
    rw [length_cons] at shorter
    show (readWithin reader others.length result.2).bind _ = (readAll reader result.2).bind _
    rw [readWithin_eq consumes le_rfl (Nat.le_of_lt_succ shorter)]
    rfl

end All

/-- A reader takes from the front exactly what encodes its value, whatever follows. -/
def Decodes (reader : Reader Byte Error Value) (encodes : List Byte → Value → Prop) : Prop :=
  ∀ data value rest, reader data = .ok (value, rest) ↔
    ∃ bytes, encodes bytes value ∧ data = bytes ++ rest

section Decodes

variable {reader : Reader Byte Error Value} {encodes : List Byte → Value → Prop}
  (decodes : Decodes reader encodes) (nonempty : ∀ bytes value, encodes bytes value → bytes ≠ [])

include decodes nonempty

theorem Decodes.consumes : Consumes reader := by
  intro data value rest taken
  obtain ⟨bytes, encoded, rfl⟩ := (decodes data value rest).mp taken
  have length := length_pos_of_ne_nil (nonempty bytes value encoded)
  rw [length_append]
  omega

theorem Decodes.readAll_eq_ok {data : List Byte} {values : List Value} :
    readAll reader data = .ok values ↔
      ∃ parts, Forall₂ encodes parts values ∧ data = parts.flatten := by
  have consumes := decodes.consumes nonempty
  constructor
  · intro read
    induction values generalizing data with
    | nil =>
      by_cases empty : data = []
      · exact ⟨[], .nil, empty⟩
      · rw [readAll_of_ne_nil consumes empty] at read
        obtain ⟨first, -, later⟩ := exists_of_bind_eq_ok read
        obtain ⟨others, -, same⟩ := exists_of_bind_eq_ok later
        cases same
    | cons value values hypothesis =>
      have some_ : data ≠ [] := by
        rintro rfl
        cases read
      rw [readAll_of_ne_nil consumes some_] at read
      obtain ⟨first, taken, later⟩ := exists_of_bind_eq_ok read
      obtain ⟨others, further, same⟩ := exists_of_bind_eq_ok later
      cases same
      obtain ⟨bytes, encoded, rfl⟩ := (decodes _ _ _).mp taken
      obtain ⟨parts, all, rest⟩ := hypothesis further
      exact ⟨bytes :: parts, .cons encoded all, congrArg (bytes ++ ·) rest⟩
  · rintro ⟨parts, all, rfl⟩
    induction all with
    | nil => rfl
    | @cons bytes value parts values encoded _ hypothesis =>
      rw [flatten_cons, readAll_of_ne_nil consumes (by simp [nonempty _ _ encoded]),
        (decodes _ value _).mpr ⟨bytes, encoded, rfl⟩]
      show (readAll reader parts.flatten).bind _ = _
      rw [hypothesis]
      rfl

end Decodes

/-- Take in values until the bytes end or one cannot be read; none if the rounds run out. -/
def scan (reader : Reader Byte Error Value) (accept : State → Value → State)
    (stop : State → Error → State) : Nat → List Byte → State → Option State
  | 0, _, _ => none
  | rounds + 1, data, state =>
    if data.isEmpty then some state
    else
      match reader data with
      | .ok (value, rest) => scan reader accept stop rounds rest (accept state value)
      | .error error => some (stop state error)

structure Framing (reader : Reader Byte Error Value) (bytes : Item → List Byte)
    (value : Item → Value) : Prop where
  nonempty : ∀ item, bytes item ≠ []
  reads : ∀ item rest, reader (bytes item ++ rest) = .ok (value item, rest)
  cuts : ∀ item part, part <+: bytes item → part ≠ [] → part ≠ bytes item →
    ∃ error, reader part = .error error

def stream (bytes : Item → List Byte) (items : List Item) : List Byte :=
  (items.map bytes).flatten

def contained (bytes : Item → List Byte) : List Item → Nat → List Item
  | [], _ => []
  | item :: rest, cut =>
    if (bytes item).length ≤ cut then item :: contained bytes rest (cut - (bytes item).length)
    else []

def CutInside (bytes : Item → List Byte) (items : List Item) (cut : Nat) : Prop :=
  ∃ before item after, items = before ++ item :: after ∧
    (stream bytes before).length < cut ∧ cut < (stream bytes (before ++ [item])).length

section Stream

variable {bytes : Item → List Byte}

@[simp] theorem stream_cons (item : Item) (rest : List Item) :
    stream bytes (item :: rest) = bytes item ++ stream bytes rest := rfl

theorem cutInside_cons {item : Item} {rest : List Item} {cut : Nat} :
    CutInside bytes (item :: rest) cut ↔
      0 < cut ∧ cut < (bytes item).length ∨
        (bytes item).length ≤ cut ∧ CutInside bytes rest (cut - (bytes item).length) := by
  constructor
  · rintro ⟨before, inner, after, parts, above, below⟩
    cases before with
    | nil =>
      obtain ⟨rfl, -⟩ := cons.inj parts
      simp only [nil_append, stream_cons, length_append] at above below
      exact Or.inl ⟨Nat.zero_lt_of_lt above, below⟩
    | cons first others =>
      rw [cons_append] at parts
      obtain ⟨rfl, rfl⟩ := cons.inj parts
      rw [cons_append, stream_cons, length_append] at below
      rw [stream_cons, length_append] at above
      exact .inr ⟨by omega, others, inner, after, rfl, by omega, by omega⟩
  · rintro (⟨above, below⟩ | ⟨beyond, before, inner, after, rfl, above, below⟩)
    · refine ⟨[], item, rest, rfl, above, ?_⟩
      rw [nil_append, stream_cons, length_append]
      omega
    · refine ⟨item :: before, inner, after, rfl, ?_, ?_⟩
      · rw [stream_cons, length_append]
        omega
      · rw [cons_append, stream_cons, length_append]
        omega

theorem exists_take_stream_eq (items : List Item) (cut : Nat) :
    ∃ part, (stream bytes items).take cut = stream bytes (contained bytes items cut) ++ part ∧
      (part = [] ∧ ¬ CutInside bytes items cut ∨
        CutInside bytes items cut ∧ ∃ item, part <+: bytes item ∧ part ≠ [] ∧
          part ≠ bytes item) := by
  induction items generalizing cut with
  | nil =>
    refine ⟨[], take_nil, .inl ⟨rfl, ?_⟩⟩
    rintro ⟨before, item, after, parts, -⟩
    cases before <;> cases parts
  | cons item rest hypothesis =>
    rw [stream_cons, cutInside_cons]
    unfold contained
    by_cases whole : (bytes item).length ≤ cut
    · rw [if_pos whole, take_append, take_of_length_le whole]
      obtain ⟨part, parts, inside⟩ := hypothesis (cut - (bytes item).length)
      refine ⟨part, ?_, ?_⟩
      · rw [parts, stream_cons, append_assoc]
      · have same : (0 < cut ∧ cut < (bytes item).length ∨ (bytes item).length ≤ cut ∧
            CutInside bytes rest (cut - (bytes item).length)) ↔
              CutInside bytes rest (cut - (bytes item).length) :=
          ⟨fun either => either.elim (fun own => absurd own.2 (not_lt.mpr whole)) (·.2),
            fun inner => .inr ⟨whole, inner⟩⟩
        rw [same]
        exact inside
    · have below := not_le.mp whole
      rw [if_neg whole, take_append_of_le_length below.le]
      refine ⟨(bytes item).take cut, rfl, ?_⟩
      cases cut with
      | zero => exact .inl ⟨take_zero, by simp [whole]⟩
      | succ cut =>
        refine Or.inr ⟨Or.inl ⟨Nat.succ_pos _, below⟩, item, take_prefix _ _, ?_, ?_⟩
        · intro empty
          have length := congrArg length empty
          rw [length_take, length_nil] at length
          omega
        · intro all
          have length := congrArg length all
          rw [length_take] at length
          omega

variable {reader : Reader Byte Error Value} {value : Item → Value}
  {accept : State → Value → State} {stop : State → Error → State}

section

variable (framing : Framing reader bytes value) (items : List Item)

include framing

theorem Framing.scan_append (part : List Byte) {rounds : Nat} (state : State) :
    scan reader accept stop (items.length + rounds) (stream bytes items ++ part) state =
      scan reader accept stop rounds part
        (items.foldl (fun state item => accept state (value item)) state) := by
  induction items generalizing state with
  | nil =>
    rw [length_nil, zero_add]
    rfl
  | cons item rest hypothesis =>
    rw [stream_cons, append_assoc, length_cons, add_right_comm, scan,
      if_neg (by simp [framing.nonempty item]), framing.reads]
    exact hypothesis _

theorem Framing.length_le : items.length ≤ (stream bytes items).length := by
  induction items with
  | nil => exact Nat.zero_le _
  | cons item rest hypothesis =>
    have own := length_pos_of_ne_nil (framing.nonempty item)
    rw [stream_cons, length_append, length_cons]
    omega

theorem Framing.scan_eq {rounds : Nat} (enough : (stream bytes items).length < rounds)
    (state : State) :
    scan reader accept stop rounds (stream bytes items) state =
      some (items.foldl (fun state item => accept state (value item)) state) := by
  have most := framing.length_le items
  obtain ⟨more, rfl⟩ := Nat.exists_eq_add_of_le (most.trans enough.le)
  rw [← append_nil (stream bytes items), framing.scan_append]
  cases more with
  | zero => omega
  | succ more => rfl

theorem Framing.scan_stop_eq {part : List Byte} {error : Error}
    (refused : reader part = .error error) (some_ : part ≠ []) {rounds : Nat}
    (enough : (stream bytes items ++ part).length < rounds) (state : State) :
    scan reader accept stop rounds (stream bytes items ++ part) state =
      some (stop (items.foldl (fun state item => accept state (value item)) state) error) := by
  have most := framing.length_le items
  rw [length_append] at enough
  obtain ⟨more, rfl⟩ := Nat.exists_eq_add_of_le (show items.length ≤ rounds by omega)
  rw [framing.scan_append]
  cases more with
  | zero => omega
  | succ more => rw [scan, if_neg (by simpa using some_), refused]

theorem Framing.scan_cut_eq {item : Item} {part : List Byte} (beginning : part <+: bytes item)
    (some_ : part ≠ []) (proper : part ≠ bytes item) {rounds : Nat}
    (enough : (stream bytes items ++ part).length < rounds) (state : State) :
    ∃ error, scan reader accept stop rounds (stream bytes items ++ part) state =
      some (stop (items.foldl (fun state item => accept state (value item)) state) error) := by
  obtain ⟨error, refused⟩ := framing.cuts item part beginning some_ proper
  exact ⟨error, framing.scan_stop_eq items refused some_ enough state⟩

omit items in
/-- If a reader takes nothing but items, any data is items up to where the reader refuses. -/
theorem Framing.exists_stream_append (only : ∀ data taken rest, reader data = .ok (taken, rest) →
    ∃ item, bytes item ++ rest = data) (data : List Byte) :
    ∃ items rest error, stream bytes items ++ rest = data ∧ reader rest = .error error := by
  induction length : data.length using Nat.strong_induction_on generalizing data with
  | _ _ hypothesis =>
    cases read : reader data with
    | error error => exact ⟨[], data, error, rfl, read⟩
    | ok result =>
      obtain ⟨item, rfl⟩ := only data result.1 result.2 read
      have own := length_pos_of_ne_nil (framing.nonempty item)
      rw [length_append] at length
      obtain ⟨items, rest, error, parts, refused⟩ := hypothesis _ (by omega) result.2 rfl
      exact ⟨item :: items, rest, error, by rw [stream_cons, append_assoc, parts], refused⟩

end

end Stream

end Frames
