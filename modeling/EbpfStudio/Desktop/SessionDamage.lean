/-
This file proves that a damaged session file is never loaded as intact.

What survives a damage is a part of the lines in their order. The reader delivers the records of the
surviving lines, and a line that was replaced is counted as rejected. If the footer is lost the
session is not closed, and if it survives it counts more events than are left or a line was
rejected.
-/

import EbpfStudio.Desktop.SessionWriting

namespace EbpfStudio

open Lines List Option SessionRecord

variable {Event Payload : Type}

theorem mem_of_mem_lastFooter {records : List (SessionRecord Event Payload)}
    {footer : SessionFooter} (isLast : footer ∈ lastFooter records) :
    .footer footer ∈ records := by
  obtain ⟨record, member, isFooter⟩ := mem_filterMap.mp (mem_of_getLast? isLast)
  cases record with
  | footer last => exact (some.inj isFooter) ▸ member
  | event sequence event => cases isFooter
  | detail kind payload => cases isFooter

variable {Record : Type} {format : RecordFormat Record}

theorem RecordFormat.Carries.parse_beginning {record other : Record}
    (carries : format.Carries record) {beginning : List UInt8}
    (begins : beginning <+: format.encode record) (parsed : format.parse beginning = some other) :
    other = record := by
  by_cases all : beginning = format.encode record
  · rw [all, carries.parse_encode] at parsed
    exact (some.inj parsed).symm
  · rw [carries.whole beginning ((mem_inits _ _).mpr begins) all] at parsed
    cases parsed

theorem RecordFormat.Carries.encode_ne_nil {record : Record} (carries : format.Carries record) :
    format.encode record ≠ [] := by
  intro empty
  exact carries.visible (by rw [empty]; rfl)

theorem parse_of_delivered {parse : List UInt8 → Option Record} {maxLineBytes : Nat}
    {line : List UInt8} {record : Record} (read : delivered parse maxLineBytes line = some record) :
    parse line = some record := by
  rw [delivered] at read
  split at read
  · cases read
  · exact read

section Truncated

variable {format : RecordFormat (SessionRecord Event Payload)} {maxLineBytes : Nat}
  {records : List (SessionRecord Event Payload)} {footer : SessionFooter}

theorem mem_of_delivered_take (carries : ∀ record ∈ records, format.Carries record)
    (closes : format.Carries (.footer footer)) {length : Nat}
    (short : length < (unlines lineFeed (records.map format.encode)).length +
      (format.encode (.footer footer)).length) {line : List UInt8}
    (member : line ∈ lines lineFeed ((unlines lineFeed (records.map format.encode) ++
      format.encode (.footer footer)).take length)) {record : SessionRecord Event Payload}
    (read : delivered format.parse maxLineBytes line = some record) : record ∈ records := by
  have parsed := parse_of_delivered read
  have unbroken : ∀ body ∈ records.map format.encode, lineFeed ∉ body := by
    intro body isBody
    obtain ⟨original, among, rfl⟩ := mem_map.mp isBody
    exact (carries original among).unbroken
  rcases mem_lines_take unbroken closes.unbroken member with ⟨body, isBody, form⟩ | tail
  · obtain ⟨original, among, rfl⟩ := mem_map.mp isBody
    rcases form with whole | begins
    · rw [whole, (carries original among).parse_line] at parsed
      exact some.inj parsed ▸ among
    · exact (carries original among).parse_beginning begins parsed ▸ among
  · -- what is left of the footer cannot be read
    have cut : line ≠ format.encode (.footer footer) := by
      intro same
      have lengths := congrArg List.length (tail.symm.trans same)
      have visible := List.length_pos_of_ne_nil closes.encode_ne_nil
      rw [List.length_take] at lengths
      omega
    have begins : line <+: format.encode (.footer footer) := tail ▸ ⟨_, take_append_drop ..⟩
    rw [closes.whole line ((mem_inits _ _).mpr begins) cut] at parsed
    cases parsed

end Truncated

inductive LineDamage where
  | kept
  | deleted
  | replaced (line : List UInt8)
  deriving DecidableEq

namespace LineDamage

/-- Only events are deleted, and a line is replaced by one that is not blank and cannot be
read. -/
def Allowed (parse : List UInt8 → Option (SessionRecord Event Payload))
    (record : SessionRecord Event Payload) : LineDamage → Prop
  | kept => True
  | deleted => record.isEvent
  | replaced line =>
    lineFeed ∉ line ∧ ¬ line.all isAsciiWhitespace ∧ parse (line ++ [lineFeed]) = none

def remains (format : RecordFormat (SessionRecord Event Payload))
    (record : SessionRecord Event Payload) : LineDamage → Option (List UInt8)
  | kept => some (format.encode record)
  | deleted => none
  | replaced line => some line

end LineDamage

def damagedFile (format : RecordFormat (SessionRecord Event Payload))
    (entries : List (SessionRecord Event Payload × LineDamage)) : List UInt8 :=
  unlines lineFeed (entries.filterMap fun entry => entry.2.remains format entry.1)

section Damaged

variable {format : RecordFormat (SessionRecord Event Payload)} {maxLineBytes : Nat}
  {entries : List (SessionRecord Event Payload × LineDamage)}

def survivor (format : RecordFormat (SessionRecord Event Payload)) (maxLineBytes : Nat)
    (entry : SessionRecord Event Payload × LineDamage) : Option (SessionRecord Event Payload) :=
  (entry.2.remains format entry.1).bind fun body =>
    delivered format.parse maxLineBytes (body ++ [lineFeed])

theorem kept_of_survivor {entry : SessionRecord Event Payload × LineDamage}
    (carries : format.Carries entry.1) (allowed : entry.2.Allowed format.parse entry.1)
    {record : SessionRecord Event Payload}
    (survives : survivor format maxLineBytes entry = some record) :
    record = entry.1 ∧ entry.2 = .kept := by
  obtain ⟨original, damage⟩ := entry
  cases damage with
  | kept =>
    have parsed : format.parse (format.encode original ++ [lineFeed]) = some record :=
      parse_of_delivered survives
    rw [carries.parse_line] at parsed
    exact ⟨(some.inj parsed).symm, rfl⟩
  | deleted => cases survives
  | replaced line =>
    have parsed : format.parse (line ++ [lineFeed]) = some record := parse_of_delivered survives
    rw [allowed.2.2] at parsed
    cases parsed

section

variable (carries : ∀ entry ∈ entries, format.Carries entry.1)
  (allowed : ∀ entry ∈ entries, entry.2.Allowed format.parse entry.1)

include carries allowed

theorem lines_damagedFile :
    lines lineFeed (damagedFile format entries) =
      (entries.filterMap fun entry => entry.2.remains format entry.1).map (· ++ [lineFeed]) := by
  refine lines_unlines fun body member => ?_
  obtain ⟨⟨record, damage⟩, among, remains⟩ := mem_filterMap.mp member
  cases damage with
  | kept => exact some.inj remains ▸ (carries _ among).unbroken
  | deleted => cases remains
  | replaced line => exact some.inj remains ▸ (allowed _ among).1

theorem records_damagedFile :
    (lines lineFeed (damagedFile format entries)).filterMap
      (delivered format.parse maxLineBytes) = entries.filterMap (survivor format maxLineBytes) := by
  rw [lines_damagedFile carries allowed, filterMap_map, filterMap_filterMap]
  rfl

variable {record : SessionRecord Event Payload}

theorem rejects_replaced {line : List UInt8} (replaced : (record, .replaced line) ∈ entries) :
    ∃ line ∈ lines lineFeed (damagedFile format entries),
      rejects format.parse maxLineBytes line := by
  obtain ⟨-, visible, unreadable⟩ := allowed _ replaced
  refine ⟨line ++ [lineFeed], ?_, ?_⟩
  · rw [lines_damagedFile carries allowed]
    exact mem_map_of_mem (mem_filterMap.mpr ⟨_, replaced, rfl⟩)
  · simp [rejects, unreadable, visible]

theorem countP_survivor_lt (deleted : (record, .deleted) ∈ entries) :
    (entries.filterMap (survivor format maxLineBytes)).countP isEvent <
      (entries.map Prod.fst).countP isEvent := by
  have fewer : ∀ part ⊆ entries, (part.filterMap (survivor format maxLineBytes)).countP
      isEvent ≤ (part.map Prod.fst).countP isEvent := by
    intro part among
    rw [countP_filterMap, countP_map]
    refine countP_mono_left fun entry member isEvent => ?_
    cases survives : survivor format maxLineBytes entry with
    | none => simp [survives] at isEvent
    | some original =>
      obtain ⟨same, -⟩ := kept_of_survivor (carries _ (among member)) (allowed _ (among member))
        survives
      simpa [survives, same] using isEvent
  have isEvent : record.isEvent := allowed _ deleted
  obtain ⟨before, after, rfl⟩ := append_of_mem deleted
  have earlier := fewer before (subset_append_left _ _)
  have later := fewer after (fun _ member => mem_append_right _ (.tail _ member))
  rw [filterMap_append, filterMap_cons_none rfl, countP_append, map_append,
    map_cons, countP_append, countP_cons_of_pos isEvent]
  omega

theorem footer_of_survivors {records : List (SessionRecord Event Payload)}
    {footer last : SessionFooter} (original : entries.map Prod.fst = records ++ [.footer footer])
    (plain : ∀ record ∈ records, record.footer? = none)
    (isLast : last ∈ lastFooter (entries.filterMap (survivor format maxLineBytes))) :
    last = footer := by
  obtain ⟨entry, among, survives⟩ := mem_filterMap.mp (mem_of_mem_lastFooter isLast)
  have isEntry := (kept_of_survivor (carries _ among) (allowed _ among) survives).1
  have written : .footer last ∈ records ++ [.footer footer] :=
    original ▸ isEntry ▸ mem_map_of_mem among
  rcases mem_append.mp written with isRecord | isFooter
  · cases plain _ isRecord
  · exact SessionRecord.footer.inj (mem_singleton.mp isFooter)

end

end Damaged

def writtenFile (format : RecordFormat (SessionRecord Event Payload))
    (records : List (SessionRecord Event Payload)) (footer : SessionFooter) : List UInt8 :=
  ((records.foldl (SessionWriter.append format) {}).append format (.footer footer)).output

theorem writtenFile_eq (format : RecordFormat (SessionRecord Event Payload))
    (records : List (SessionRecord Event Payload)) (footer : SessionFooter) :
    writtenFile format records footer =
      unlines lineFeed (records.map format.encode) ++ format.encode (.footer footer) ++
        [lineFeed] := by
  simp [writtenFile, foldl_writer, SessionWriter.append, RecordFormat.writeRecord]

/-- A session is written and closed with a footer that counts its events. Neither the file
without the last byte of the footer, or cut off earlier, nor the file with some events deleted or
some lines replaced is loaded as intact. -/
theorem damaged_session_is_not_intact (format : RecordFormat (SessionRecord Event Payload))
    (maxLineBytes : Nat) (records : List (SessionRecord Event Payload)) (footer : SessionFooter)
    (carries : ∀ record ∈ records ++ [.footer footer], format.Carries record)
    (plain : ∀ record ∈ records, record.footer? = none)
    (counts : footer.eventsPersisted.val = records.countP SessionRecord.isEvent) :
    (∀ length, length + 1 < (writtenFile format records footer).length →
      (readEvents format.parse maxLineBytes
        ((writtenFile format records footer).take length)).integrityOk ≠ some true) ∧
      ∀ entries : List (SessionRecord Event Payload × LineDamage),
        entries.map Prod.fst = records ++ [.footer footer] →
        (∀ entry ∈ entries, entry.2.Allowed format.parse entry.1) →
        (∃ entry ∈ entries, entry.2 ≠ .kept) →
        (readEvents format.parse maxLineBytes (damagedFile format entries)).integrityOk ≠
          some true := by
  obtain ⟨carriesRecords, closes⟩ := forall_mem_append.mp carries
  have closes := closes _ (mem_singleton_self _)
  refine ⟨fun length short intact => ?_, fun entries original allowed damaged intact => ?_⟩
  · rw [writtenFile_eq, length_append, length_append, length_singleton] at short
    rw [writtenFile_eq, take_append_of_le_length (by rw [length_append]; omega)]
      at intact
    obtain ⟨last, isLast, -⟩ := (readEvents_intact_iff ..).mp intact
    obtain ⟨line, member, read⟩ := mem_filterMap.mp (mem_of_mem_lastFooter isLast)
    have among := mem_of_delivered_take carriesRecords closes (by omega) member read
    cases plain _ among
  · have carries : ∀ entry ∈ entries, format.Carries entry.1 := fun entry member =>
      carries entry.1 (original ▸ mem_map_of_mem member)
    obtain ⟨last, isLast, -, counted, accepted⟩ := (readEvents_intact_iff ..).mp intact
    rw [records_damagedFile carries allowed] at isLast counted
    obtain ⟨⟨record, damage⟩, member, changed⟩ := damaged
    cases damage with
    | kept => exact changed rfl
    | replaced line =>
      obtain ⟨rejected, among, rejects⟩ := rejects_replaced carries allowed member
      exact accepted rejected among rejects
    | deleted =>
      -- the footer counts more events than were read
      have same := footer_of_survivors carries allowed original plain isLast
      have fewer : (entries.filterMap (survivor format maxLineBytes)).countP
          isEvent < _ := countP_survivor_lt carries allowed member
      rw [← counted, same, counts, original, countP_append] at fewer
      exact absurd fewer (lt_irrefl _)

theorem damaged_session_is_not_intact_event :
    (readEvents briefFormat.parse defaultMaxLineBytes
        (writtenFile briefFormat [.event 1 ()] ⟨2, 1, 0, 1, some false⟩)).integrityOk = some true ∧
      (readEvents briefFormat.parse defaultMaxLineBytes
        ((writtenFile briefFormat [.event 1 ()] ⟨2, 1, 0, 1, some false⟩).take 2)).integrityOk ≠
          some true ∧
      (readEvents briefFormat.parse defaultMaxLineBytes
        (damagedFile briefFormat [(.event 1 (), .deleted),
          (.footer ⟨2, 1, 0, 1, some false⟩, .kept)])).integrityOk ≠ some true := by
  have damaged := damaged_session_is_not_intact briefFormat defaultMaxLineBytes [.event 1 ()]
    ⟨2, 1, 0, 1, some false⟩ (by decide +kernel) (by decide) (by decide)
  refine ⟨by decide +kernel, damaged.1 2 (by decide +kernel), damaged.2 _ rfl ?_ ?_⟩
  · simp [LineDamage.Allowed, isEvent]
  · exact ⟨_, mem_cons_self, by decide⟩

end EbpfStudio
