/-
This file models how the desktop saves a session while it captures, and proves when the footer that
closes the session adds up.

The desktop hands each record to a writer with a bounded backlog, and a record is refused when the
backlog is full. `Saved` relates the counters to the records that were accepted and refused. The
footer counts refused records of every kind but only events as seen, so its numbers agree exactly if
only events were refused.
-/

import EbpfStudio.Protocol.SessionReader

namespace EbpfStudio

open Lines Run List Word

variable {Event Payload : Type}

structure SessionWriter where
  output : List UInt8 := []
  persisted : Nat := 0
  deriving DecidableEq

def SessionWriter.append (format : RecordFormat (SessionRecord Event Payload))
    (writer : SessionWriter) (record : SessionRecord Event Payload) : SessionWriter where
  output := writer.output ++ format.writeRecord record
  persisted := if record.isEvent then writer.persisted + 1 else writer.persisted

/-- The writer with its backlog. -/
structure AsyncSessionWriter (Event Payload : Type) where
  backlog : List (SessionRecord Event Payload) := []
  writer : SessionWriter := {}

def appendError : String :=
  "session writer unavailable or backlog full; " ++
    "free disk space and retry after saving partial data"

namespace AsyncSessionWriter

def append (async : AsyncSessionWriter Event Payload) (record : SessionRecord Event Payload)
    (full : Bool) : Except String (AsyncSessionWriter Event Payload) :=
  if full then .error appendError else .ok { async with backlog := async.backlog ++ [record] }

def work (format : RecordFormat (SessionRecord Event Payload))
    (async : AsyncSessionWriter Event Payload) : AsyncSessionWriter Event Payload :=
  match async.backlog with
  | [] => async
  | record :: rest => { backlog := rest, writer := async.writer.append format record }

def drained (format : RecordFormat (SessionRecord Event Payload))
    (async : AsyncSessionWriter Event Payload) : SessionWriter :=
  async.backlog.foldl (SessionWriter.append format) async.writer

end AsyncSessionWriter

def closingFooter (eventsSeen persisted eventsRejected : Nat) (graceful : Bool) :
    SessionFooter where
  eventsSeen := Word.ofNat 64 eventsSeen
  eventsPersisted := Word.ofNat 64 persisted
  eventsDropped := (Word.ofNat 64 eventsSeen).saturatingSub (persisted + eventsRejected)
  eventsRejected := Word.ofNat 64 eventsRejected
  graceful := some graceful

/-- The session that is being saved. -/
structure SavedSession (Event Payload : Type) where
  writer : AsyncSessionWriter Event Payload := {}
  receivedEvents : Nat := 0
  rejectedRecords : Nat := 0
  agentFooterSeen : Bool := false
  agentGraceful : Option Bool := none
  captureError : Option String := none

/-- A record arrives, at a backlog that is full or not, or the worker takes a record. -/
inductive SessionInput (Event Payload : Type) where
  | received (record : SessionRecord Event Payload) (full : Bool)
  | persisted
  deriving DecidableEq

namespace SavedSession

def noteFooter (session : SavedSession Event Payload) (record : SessionRecord Event Payload) :
    SavedSession Event Payload :=
  match record with
  | .footer footer =>
    { session with agentFooterSeen := true, agentGraceful := footer.graceful }
  | _ => session

def appendRecord (session : SavedSession Event Payload) (record : SessionRecord Event Payload)
    (full : Bool) : SavedSession Event Payload :=
  if record.footer?.isSome then session
  else
    match session.writer.append record full with
    | .ok writer => { session with writer := writer }
    | .error error =>
      { session with
        rejectedRecords := session.rejectedRecords + 1, captureError := some error }

def ingestRecord (session : SavedSession Event Payload) (record : SessionRecord Event Payload)
    (full : Bool) : SavedSession Event Payload :=
  let session := (session.noteFooter record).appendRecord record full
  if record.isEvent then { session with receivedEvents := session.receivedEvents + 1 }
  else session

def step (format : RecordFormat (SessionRecord Event Payload))
    (session : SavedSession Event Payload) :
    SessionInput Event Payload → SavedSession Event Payload
  | .received record full => session.ingestRecord record full
  | .persisted => { session with writer := session.writer.work format }

def ended (session : SavedSession Event Payload) (error : Option String) :
    SavedSession Event Payload :=
  { session with captureError := error <|> session.captureError }

def footer (format : RecordFormat (SessionRecord Event Payload))
    (session : SavedSession Event Payload) : SessionFooter :=
  closingFooter session.receivedEvents (session.writer.drained format).persisted
    session.rejectedRecords
    (session.agentGraceful == some true && session.captureError.isNone)

/-- Close the session with a footer. -/
def finishSession (format : RecordFormat (SessionRecord Event Payload))
    (session : SavedSession Event Payload) : List UInt8 :=
  ((session.writer.drained format).append format (.footer (session.footer format))).output

end SavedSession

variable (format : RecordFormat (SessionRecord Event Payload))

theorem foldl_writer (writer : SessionWriter) (records : List (SessionRecord Event Payload)) :
    records.foldl (SessionWriter.append format) writer =
      { output := writer.output ++ unlines lineFeed (records.map format.encode)
        persisted := writer.persisted + records.countP SessionRecord.isEvent } := by
  induction records generalizing writer with
  | nil => simp [unlines]
  | cons record others hypothesis =>
    rw [foldl_cons, hypothesis]
    cases isEvent : record.isEvent with
    | true => simp [SessionWriter.append, RecordFormat.writeRecord, unlines, isEvent]; omega
    | false => simp [SessionWriter.append, RecordFormat.writeRecord, unlines, isEvent]

namespace SessionInput

def appended (refused : Bool) : SessionInput Event Payload → Option (SessionRecord Event Payload)
  | received record full =>
    if record.footer?.isNone ∧ full = refused then some record else none
  | _ => none

end SessionInput

def acceptedRecords (inputs : List (SessionInput Event Payload)) :
    List (SessionRecord Event Payload) :=
  inputs.filterMap (SessionInput.appended false)

def refusedRecords (inputs : List (SessionInput Event Payload)) :
    List (SessionRecord Event Payload) :=
  inputs.filterMap (SessionInput.appended true)

section Snoc

variable (inputs : List (SessionInput Event Payload)) (record : SessionRecord Event Payload)
  (full : Bool)

theorem acceptedRecords_persisted :
    acceptedRecords (inputs ++ [.persisted]) = acceptedRecords inputs := by
  simp [acceptedRecords, SessionInput.appended]

theorem refusedRecords_persisted :
    refusedRecords (inputs ++ [.persisted]) = refusedRecords inputs := by
  simp [refusedRecords, SessionInput.appended]

theorem acceptedRecords_received :
    acceptedRecords (inputs ++ [.received record full]) =
      acceptedRecords inputs ++ if record.footer?.isNone ∧ full = false then [record] else [] := by
  rw [acceptedRecords, filterMap_snoc, SessionInput.appended]
  split <;> rfl

theorem refusedRecords_received :
    refusedRecords (inputs ++ [.received record full]) =
      refusedRecords inputs ++ if record.footer?.isNone ∧ full = true then [record] else [] := by
  rw [refusedRecords, filterMap_snoc, SessionInput.appended]
  split <;> rfl

end Snoc

structure Saved (format : RecordFormat (SessionRecord Event Payload))
    (inputs : List (SessionInput Event Payload)) (session : SavedSession Event Payload) :
    Prop where
  drained : session.writer.drained format =
    (acceptedRecords inputs).foldl (SessionWriter.append format) {}
  received : session.receivedEvents =
    (acceptedRecords inputs).countP SessionRecord.isEvent +
      (refusedRecords inputs).countP SessionRecord.isEvent
  rejected : session.rejectedRecords = (refusedRecords inputs).length

theorem drained_work (async : AsyncSessionWriter Event Payload) :
    (async.work format).drained format = async.drained format := by
  rcases async with ⟨_ | ⟨record, rest⟩, writer⟩ <;> rfl

section Ingest

variable (format : RecordFormat (SessionRecord Event Payload))
  (session : SavedSession Event Payload) (record : SessionRecord Event Payload) (full : Bool)

theorem drained_ingestRecord :
    (session.ingestRecord record full).writer.drained format =
      if record.footer?.isNone ∧ full = false then
        (session.writer.drained format).append format record
      else session.writer.drained format := by
  have appended : ({ session.writer with backlog := session.writer.backlog ++ [record] } :
      AsyncSessionWriter Event Payload).drained format =
      (session.writer.drained format).append format record :=
    List.foldl_append
  cases record <;> cases full <;> first | exact appended | rfl

theorem rejectedRecords_ingestRecord :
    (session.ingestRecord record full).rejectedRecords =
      session.rejectedRecords + if record.footer?.isNone ∧ full = true then 1 else 0 := by
  cases record <;> cases full <;> rfl

theorem receivedEvents_ingestRecord :
    (session.ingestRecord record full).receivedEvents =
      session.receivedEvents + [record].countP SessionRecord.isEvent := by
  cases record <;> cases full <;> rfl

end Ingest

theorem saved_step {format : RecordFormat (SessionRecord Event Payload)}
    {inputs : List (SessionInput Event Payload)} {session : SavedSession Event Payload}
    (saved : Saved format inputs session) (input : SessionInput Event Payload) :
    Saved format (inputs ++ [input]) (session.step format input) := by
  obtain ⟨drained, received, rejected⟩ := saved
  cases input with
  | persisted =>
    refine ⟨?_, ?_, ?_⟩
    · rw [acceptedRecords_persisted, ← drained]
      exact drained_work format session.writer
    · rwa [acceptedRecords_persisted, refusedRecords_persisted]
    · rwa [refusedRecords_persisted]
  | received record full =>
    rw [SavedSession.step]
    refine ⟨?_, ?_, ?_⟩
    · rw [drained_ingestRecord, acceptedRecords_received, List.foldl_append, ← drained]
      split <;> rfl
    · rw [receivedEvents_ingestRecord, received, acceptedRecords_received, refusedRecords_received,
        countP_append, countP_append]
      -- an event is either accepted or refused; a footer is not an event
      cases record <;> cases full <;> simp [SessionRecord.footer?, SessionRecord.isEvent] <;> omega
    · rw [rejectedRecords_ingestRecord, rejected, refusedRecords_received, length_append]
      split <;> rfl

theorem saved_run (inputs : List (SessionInput Event Payload)) :
    Saved format inputs (run (SavedSession.step format) {} inputs) :=
  run_induction (Saved format) ⟨rfl, rfl, rfl⟩ (fun _ input saved => saved_step saved input) inputs

section Closing

variable (format : RecordFormat (SessionRecord Event Payload))
  (inputs : List (SessionInput Event Payload)) (error : Option String)

def savedSession : SavedSession Event Payload :=
  (run (SavedSession.step format) {} inputs).ended error

def savedFooter : SessionFooter := (savedSession format inputs error).footer format

def savedRecords : List (SessionRecord Event Payload) :=
  acceptedRecords inputs ++ [.footer (savedFooter format inputs error)]

theorem finishSession_eq :
    (savedSession format inputs error).finishSession format =
      unlines lineFeed ((savedRecords format inputs error).map format.encode) := by
  have drained : (savedSession format inputs error).writer.drained format = _ :=
    (saved_run format inputs).drained
  rw [SavedSession.finishSession, drained, foldl_writer]
  simp [SessionWriter.append, RecordFormat.writeRecord, unlines, savedRecords, savedFooter]

theorem length_appended_le :
    (acceptedRecords inputs).length + (refusedRecords inputs).length ≤ inputs.length := by
  refine reverseRecOn inputs (le_refl _) fun history input bounded => ?_
  rw [length_append, length_singleton]
  cases input with
  | persisted =>
    rw [acceptedRecords_persisted, refusedRecords_persisted]
    exact bounded.trans (Nat.le_succ _)
  | received record full =>
    rw [acceptedRecords_received, refusedRecords_received, length_append, length_append]
    cases full <;> cases record.footer?.isNone <;> simp <;> omega

variable {inputs}

theorem footer_fields (small : inputs.length < 2 ^ 64) :
    (savedFooter format inputs error).eventsSeen.val =
        (acceptedRecords inputs).countP SessionRecord.isEvent +
          (refusedRecords inputs).countP SessionRecord.isEvent ∧
      (savedFooter format inputs error).eventsPersisted.val =
        (acceptedRecords inputs).countP SessionRecord.isEvent ∧
      (savedFooter format inputs error).eventsDropped.val = 0 ∧
      (savedFooter format inputs error).eventsRejected.val =
        (refusedRecords inputs).length := by
  obtain ⟨drained, received, rejected⟩ := saved_run format inputs
  have persisted : ((savedSession format inputs error).writer.drained format).persisted =
      (acceptedRecords inputs).countP SessionRecord.isEvent := by
    rw [show (savedSession format inputs error).writer.drained format = _ from drained,
      foldl_writer]
    exact Nat.zero_add _
  have bounded := length_appended_le inputs
  have acceptedEvents : (acceptedRecords inputs).countP SessionRecord.isEvent ≤ _ :=
    countP_le_length
  have refusedEvents : (refusedRecords inputs).countP SessionRecord.isEvent ≤ _ :=
    countP_le_length
  have seen : (savedSession format inputs error).receivedEvents = _ := received
  have refusals : (savedSession format inputs error).rejectedRecords = _ := rejected
  simp only [savedFooter, SavedSession.footer, closingFooter, persisted, seen, refusals, ofNat,
    saturatingSub_val]
  refine ⟨Nat.mod_eq_of_lt ?_, Nat.mod_eq_of_lt ?_, ?_, Nat.mod_eq_of_lt ?_⟩
  · omega
  · omega
  · rw [Nat.mod_eq_of_lt (by omega)]
    omega
  · omega

theorem footer_sum_iff (small : inputs.length < 2 ^ 64) :
    (savedFooter format inputs error).eventsSeen.val =
        (savedFooter format inputs error).eventsPersisted +
          (savedFooter format inputs error).eventsDropped +
          (savedFooter format inputs error).eventsRejected ↔
      ∀ record ∈ refusedRecords inputs, record.isEvent := by
  obtain ⟨seen, persisted, dropped, rejected⟩ := footer_fields format error small
  rw [← countP_eq_length, seen, persisted, dropped, rejected]
  omega

theorem footer_addsUp_iff (small : inputs.length < 2 ^ 64) :
    (savedFooter format inputs error).addsUp ↔
      ∀ record ∈ refusedRecords inputs, record.isEvent := by
  obtain ⟨seen, persisted, dropped, rejected⟩ := footer_fields format error small
  have bounded := length_appended_le inputs
  have acceptedEvents : (acceptedRecords inputs).countP SessionRecord.isEvent ≤ _ :=
    countP_le_length
  rw [← footer_sum_iff format error small, SessionFooter.addsUp, beq_iff_eq, Fin.ext_iff,
    saturatingAdd_val, saturatingAdd_val]
  omega

theorem readEvents_finishSession_iff {maxLineBytes : Nat} (small : inputs.length < 2 ^ 64)
    (readable : ∀ record ∈ savedRecords format inputs error,
      format.Carries record ∧ (format.encode record).length < maxLineBytes) :
    (readEvents format.parse maxLineBytes
        ((savedSession format inputs error).finishSession format)).integrityOk = some true ↔
      (savedFooter format inputs error).addsUp := by
  have read : ((savedRecords format inputs error).map format.writeRecord).filterMap
      (delivered format.parse maxLineBytes) = savedRecords format inputs error := by
    rw [filterMap_map]
    refine (filterMap_congr fun record member => ?_).trans filterMap_some
    obtain ⟨carries, fits⟩ := readable record member
    rw [Function.comp_apply, delivered_writeRecord carries, if_neg (Nat.not_le_of_lt fits)]
  have last : lastFooter (savedRecords format inputs error) =
      some (savedFooter format inputs error) := by
    simp [lastFooter, savedRecords, SessionRecord.footer?]
  have counted : (savedRecords format inputs error).countP SessionRecord.isEvent =
      (acceptedRecords inputs).countP SessionRecord.isEvent := by
    simp [savedRecords, SessionRecord.isEvent]
  rw [readEvents_intact_iff, finishSession_eq, lines_written fun record member =>
    (readable record member).1, read, last, counted]
  constructor
  · rintro ⟨footer, isLast, addsUp, -, -⟩
    rwa [Option.mem_some_iff.mp isLast]
  · intro addsUp
    refine ⟨_, rfl, addsUp, (footer_fields format error small).2.1, fun line member => ?_⟩
    obtain ⟨record, among, rfl⟩ := mem_map.mp member
    obtain ⟨carries, fits⟩ := readable record among
    exact not_rejects_writeRecord carries fits

end Closing

/-- The session that is saved from any records, with any appends refused, counts in its footer
the events before it. Its footer adds up, and the file is read back as intact, exactly when only
events were refused. -/
theorem session_closes_intact_iff (format : RecordFormat (SessionRecord Event Payload))
    (inputs : List (SessionInput Event Payload)) (error : Option String) (maxLineBytes : Nat)
    (small : inputs.length < 2 ^ 64) :
    (savedSession format inputs error).finishSession format =
        unlines lineFeed ((savedRecords format inputs error).map format.encode) ∧
      (savedFooter format inputs error).eventsPersisted.val =
        (savedRecords format inputs error).countP SessionRecord.isEvent ∧
      ((savedFooter format inputs error).eventsSeen.val =
          (savedFooter format inputs error).eventsPersisted +
            (savedFooter format inputs error).eventsDropped +
            (savedFooter format inputs error).eventsRejected ↔
        ∀ record ∈ refusedRecords inputs, record.isEvent) ∧
      ((∀ record ∈ savedRecords format inputs error,
          format.Carries record ∧ (format.encode record).length < maxLineBytes) →
        ((readEvents format.parse maxLineBytes
            ((savedSession format inputs error).finishSession format)).integrityOk = some true ↔
          ∀ record ∈ refusedRecords inputs, record.isEvent)) := by
  refine ⟨finishSession_eq format inputs error, ?_, footer_sum_iff format error small, ?_⟩
  · rw [(footer_fields format error small).2.1]
    simp [savedRecords, SessionRecord.isEvent]
  · intro readable
    rw [readEvents_finishSession_iff format error small readable]
    exact footer_addsUp_iff format error small

def briefFormat : RecordFormat (SessionRecord Unit Unit) :=
  .ofTable
    [(.event 1 (), [101]), (.footer ⟨2, 1, 0, 1, some false⟩, [102]),
      (.footer ⟨1, 1, 0, 1, some false⟩, [103])]

theorem session_closes_intact_iff_refused_event :
    (readEvents briefFormat.parse defaultMaxLineBytes
      ((savedSession briefFormat [.received (.event 1 ()) false, .persisted,
        .received (.event 2 ()) true] none).finishSession briefFormat)).integrityOk = some true :=
  ((session_closes_intact_iff briefFormat _ none defaultMaxLineBytes (by decide)).2.2.2
    (by decide +kernel)).mpr (by decide)

/-- One event is saved and one health record is refused: the footer counts one event as seen,
as persisted and as rejected at once, and the file is not read back as intact. -/
theorem refused_health_breaks_session :
    let session := savedSession briefFormat
      [.received (.event 1 ()) false, .received (.detail .health ()) true] none
    session.footer briefFormat = ⟨1, 1, 0, 1, some false⟩ ∧
      (readEvents briefFormat.parse defaultMaxLineBytes
        (session.finishSession briefFormat)).integrityOk = some false := by
  decide +kernel

end EbpfStudio
