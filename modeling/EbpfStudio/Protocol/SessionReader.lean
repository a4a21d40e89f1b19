/-
This file models the records of a session file and the reader that loads them.

A session is a file of lines, one record in each, that ends with a footer. Blank lines are skipped,
and a line that is too long or gives no record is rejected. A load is intact if no line was rejected
and a footer closes it whose numbers add up and agree with the events that were read. The reader is
a fold over the lines (`visit_eq`).
-/

import EbpfStudio.Library.Lines
import EbpfStudio.Library.Run
import EbpfStudio.Protocol.Event

namespace EbpfStudio

open Lines Run BoundedLine

/-- The counts that close a session. -/
structure SessionFooter where
  eventsSeen : U64
  eventsPersisted : U64
  eventsDropped : U64
  eventsRejected : U64
  graceful : Option Bool
  deriving DecidableEq

/-- The records beside events and footers, which a load keeps as they are. -/
inductive DetailKind where
  | sourceInfo | diskStats | hello | capabilities | health | control | aggregate
  | heavyHitters | trigger | segment | stackFingerprint
  deriving DecidableEq

inductive SessionRecord (Event Payload : Type) where
  | event (sequence : U64) (event : Event)
  | footer (footer : SessionFooter)
  | detail (kind : DetailKind) (payload : Payload)
  deriving DecidableEq

namespace SessionRecord

variable {Event Payload : Type}

def isEvent : SessionRecord Event Payload → Bool
  | .event _ _ => true
  | _ => false

def footer? : SessionRecord Event Payload → Option SessionFooter
  | .footer last => some last
  | _ => none

end SessionRecord

def lineFeed : UInt8 := 10

def isAsciiWhitespace (byte : UInt8) : Bool :=
  byte == 32 || byte == 9 || byte == 10 || byte == 12 || byte == 13

structure RecordFormat (Record : Type) where
  encode : Record → List UInt8
  parse : List UInt8 → Option Record

namespace RecordFormat

variable {Record : Type}

/-- The line of a record can be read, with its newline and without, but no proper beginning
of it can. -/
@[mk_iff]
structure Carries (format : RecordFormat Record) (record : Record) : Prop where
  parse_encode : format.parse (format.encode record) = some record
  parse_line : format.parse (format.encode record ++ [lineFeed]) = some record
  unbroken : lineFeed ∉ format.encode record
  visible : ¬ (format.encode record).all isAsciiWhitespace
  whole : ∀ beginning ∈ (format.encode record).inits, beginning ≠ format.encode record →
    format.parse beginning = none

instance [DecidableEq Record] (format : RecordFormat Record) (record : Record) :
    Decidable (format.Carries record) :=
  decidable_of_iff _ (carries_iff format record).symm

def writeRecord (format : RecordFormat Record) (record : Record) : List UInt8 :=
  format.encode record ++ [lineFeed]

def ofTable [DecidableEq Record] (table : List (Record × List UInt8)) : RecordFormat Record where
  encode record := (table.lookup record).getD []
  parse line :=
    (table.find? fun entry => entry.2 = line.rdropWhile isAsciiWhitespace).map Prod.fst

end RecordFormat

structure Visit (Record : Type) where
  records : List Record := []
  total : Nat := 0
  rejected : Nat := 0
  deriving DecidableEq

section Visit

variable {Record : Type} (parse : List UInt8 → Option Record)

def Visit.readLine (visit : Visit Record) : BoundedLine UInt8 → Visit Record
  | .tooLong => { visit with total := visit.total + 1, rejected := visit.rejected + 1 }
  | .line bytes =>
    if bytes.all isAsciiWhitespace then visit
    else
      match parse bytes with
      | some record =>
        { visit with total := visit.total + 1, records := visit.records ++ [record] }
      | none => { visit with total := visit.total + 1, rejected := visit.rejected + 1 }

/-- Read the lines of a file. -/
def visit (maxLineBytes : Nat) (input : List UInt8) : Visit Record :=
  (boundedLines lineFeed maxLineBytes input.length input).foldl (Visit.readLine parse) {}

def defaultMaxLineBytes : Nat := 1024 * 1024

end Visit

structure SessionLoad (Event Payload : Type) where
  details : List (DetailKind × Payload) := []
  events : List Event := []
  footer : Option SessionFooter := none
  acceptedEvents : Nat := 0
  totalLines : Nat := 0
  rejectedLines : Nat := 0
  integrityOk : Option Bool := none
  graceful : Option Bool := none
  deriving DecidableEq

/-- The counts of a footer agree. -/
def SessionFooter.addsUp (footer : SessionFooter) : Bool :=
  footer.eventsSeen ==
    (footer.eventsPersisted.saturatingAdd footer.eventsDropped).saturatingAdd footer.eventsRejected

namespace SessionLoad

variable {Event Payload : Type}

def observe (loaded : SessionLoad Event Payload) :
    SessionRecord Event Payload → SessionLoad Event Payload
  | .event _ event =>
    { loaded with
      acceptedEvents := loaded.acceptedEvents + 1, events := loaded.events ++ [event] }
  | .footer footer =>
    { loaded with
      integrityOk := some footer.addsUp, graceful := footer.graceful, footer := some footer }
  | .detail kind payload => { loaded with details := loaded.details ++ [(kind, payload)] }

def conclude (loaded : SessionLoad Event Payload) (total rejected : Nat) :
    SessionLoad Event Payload :=
  let loaded := { loaded with totalLines := total, rejectedLines := rejected }
  match loaded.footer with
  | some footer =>
    { loaded with
      integrityOk := some (loaded.integrityOk == some true &&
        footer.eventsPersisted.val == loaded.acceptedEvents && rejected == 0) }
  | none => loaded

end SessionLoad

variable {Event Payload : Type}

/-- Load a session. -/
def readEvents (parse : List UInt8 → Option (SessionRecord Event Payload)) (maxLineBytes : Nat)
    (input : List UInt8) : SessionLoad Event Payload :=
  let visited := visit parse maxLineBytes input
  (visited.records.foldl SessionLoad.observe {}).conclude visited.total visited.rejected

section Delivered

variable {Record : Type} (parse : List UInt8 → Option Record) (maxLineBytes : Nat)

/-- The record that a line delivers. -/
def delivered (line : List UInt8) : Option Record :=
  if maxLineBytes < line.length || line.all isAsciiWhitespace then none else parse line

/-- A line is counted as rejected. -/
def rejects (line : List UInt8) : Bool :=
  maxLineBytes < line.length || !line.all isAsciiWhitespace && (parse line).isNone

theorem readLine_of (visit : Visit Record) (line : List UInt8) :
    (visit.readLine parse (of maxLineBytes line)).records =
        visit.records ++ (delivered parse maxLineBytes line).toList ∧
      (visit.readLine parse (of maxLineBytes line)).rejected =
        visit.rejected + (rejects parse maxLineBytes line).toNat := by
  by_cases long : maxLineBytes < line.length
  · simp [of, long, Visit.readLine, delivered, rejects]
  · cases blank : line.all isAsciiWhitespace with
    | true => simp [of, long, Visit.readLine, delivered, rejects, blank]
    | false =>
      cases parsed : parse line <;>
        simp [of, long, Visit.readLine, delivered, rejects, blank, parsed]

theorem visit_eq (input : List UInt8) :
    (visit parse maxLineBytes input).records =
        (lines lineFeed input).filterMap (delivered parse maxLineBytes) ∧
      (visit parse maxLineBytes input).rejected =
        (lines lineFeed input).countP (rejects parse maxLineBytes) := by
  rw [visit, boundedLines_eq maxLineBytes le_rfl, List.foldl_map]
  refine run_induction (fun read (visited : Visit Record) =>
    visited.records = read.filterMap (delivered parse maxLineBytes) ∧
      visited.rejected = read.countP (rejects parse maxLineBytes)) ⟨rfl, rfl⟩ ?_ _
  intro read line ⟨records, rejected⟩
  obtain ⟨moreRecords, moreRejected⟩ := readLine_of parse maxLineBytes
    (run (fun visited line => visited.readLine parse (of maxLineBytes line)) {} read)
    line
  refine ⟨?_, ?_⟩
  · rw [moreRecords, records, filterMap_snoc]
  · rw [moreRejected, rejected, List.countP_append, List.countP_singleton]
    cases rejects parse maxLineBytes line <;> rfl

end Delivered

section Written

variable {Record : Type} {format : RecordFormat Record} {maxLineBytes : Nat}

section

variable {record : Record} (carries : format.Carries record)

include carries

theorem RecordFormat.Carries.visible_line :
    (format.writeRecord record).all isAsciiWhitespace = false := by
  rw [Bool.eq_false_iff]
  intro blank
  rw [writeRecord, List.all_append, Bool.and_eq_true] at blank
  exact carries.visible blank.1

theorem delivered_writeRecord :
    delivered format.parse maxLineBytes (format.writeRecord record) =
      if maxLineBytes ≤ (format.encode record).length then none else some record := by
  have length : (format.writeRecord record).length = (format.encode record).length + 1 := by
    simp [RecordFormat.writeRecord]
  have parsed : format.parse (format.writeRecord record) = some record := carries.parse_line
  simp only [delivered, length, carries.visible_line, parsed, Bool.or_false, decide_eq_true_eq,
    Nat.lt_succ_iff]

theorem not_rejects_writeRecord (fits : (format.encode record).length < maxLineBytes) :
    ¬ rejects format.parse maxLineBytes (format.writeRecord record) := by
  have parsed : format.parse (format.writeRecord record) = some record := carries.parse_line
  have length : (format.writeRecord record).length = (format.encode record).length + 1 := by
    simp [RecordFormat.writeRecord]
  simp [rejects, length, parsed]
  omega

end

theorem lines_written {records : List Record}
    (carries : ∀ record ∈ records, format.Carries record) :
    lines lineFeed (unlines lineFeed (records.map format.encode)) =
      records.map format.writeRecord := by
  rw [lines_unlines, List.map_map]
  · rfl
  · intro body member
    obtain ⟨record, among, rfl⟩ := List.mem_map.mp member
    exact (carries record among).unbroken

end Written

def lastFooter (records : List (SessionRecord Event Payload)) : Option SessionFooter :=
  (records.filterMap SessionRecord.footer?).getLast?

theorem observe_foldl (records : List (SessionRecord Event Payload)) :
    (records.foldl SessionLoad.observe {}).footer = lastFooter records ∧
      (records.foldl SessionLoad.observe {}).integrityOk =
        (lastFooter records).map SessionFooter.addsUp ∧
      (records.foldl SessionLoad.observe {}).acceptedEvents =
        records.countP SessionRecord.isEvent := by
  refine run_induction (fun read (loaded : SessionLoad Event Payload) =>
    loaded.footer = lastFooter read ∧
      loaded.integrityOk = (lastFooter read).map SessionFooter.addsUp ∧
      loaded.acceptedEvents = read.countP SessionRecord.isEvent) ⟨rfl, rfl, rfl⟩ ?_ records
  intro read record ⟨footer, integrity, accepted⟩
  cases record with
  | event sequence event =>
    simp [SessionLoad.observe, lastFooter, SessionRecord.footer?, SessionRecord.isEvent, *]
  | footer last =>
    simp [SessionLoad.observe, lastFooter, SessionRecord.footer?, SessionRecord.isEvent, *]
  | detail kind payload =>
    simp [SessionLoad.observe, lastFooter, SessionRecord.footer?, SessionRecord.isEvent, *]

theorem readEvents_intact_iff (parse : List UInt8 → Option (SessionRecord Event Payload))
    (maxLineBytes : Nat) (input : List UInt8) :
    (readEvents parse maxLineBytes input).integrityOk = some true ↔
      ∃ footer ∈ lastFooter ((lines lineFeed input).filterMap (delivered parse maxLineBytes)),
        footer.addsUp ∧
        footer.eventsPersisted.val = ((lines lineFeed input).filterMap
          (delivered parse maxLineBytes)).countP SessionRecord.isEvent ∧
        ∀ line ∈ lines lineFeed input, ¬ rejects parse maxLineBytes line := by
  obtain ⟨records, rejected⟩ := visit_eq parse maxLineBytes input
  obtain ⟨footer, integrity, accepted⟩ := observe_foldl (visit parse maxLineBytes input).records
  rw [← records, ← List.countP_eq_zero, ← rejected]
  simp only [readEvents, SessionLoad.conclude, footer, integrity, accepted]
  cases lastFooter (visit parse maxLineBytes input).records with
  | none => simp
  | some last => simp [and_assoc]

end EbpfStudio
