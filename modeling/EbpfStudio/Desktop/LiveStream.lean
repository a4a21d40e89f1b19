/-
This file models how the desktop reads a running agent, and compares it with how it reads a saved
session.

The session reader goes on after a line that it cannot read, and the live loop ends there. Up to
that line both deliver the same records, so the records of the live loop are those of the lines in
front of it (`takeWhile`), and they are all records exactly if no record comes after it.
-/

import EbpfStudio.Protocol.SessionReader

namespace EbpfStudio

open Lines Run List

inductive StreamError where
  | lineTooLong
  | invalidUtf8
  deriving DecidableEq

def isLineEnd (byte : UInt8) : Bool :=
  byte == 10 || byte == 13

def validUtf8 (bytes : List UInt8) : Bool :=
  decide (ByteArray.mk bytes.toArray).IsValidUTF8

def streamLine : BoundedLine UInt8 → Except StreamError (List UInt8)
  | .tooLong => .error .lineTooLong
  | .line bytes =>
    let text := bytes.rdropWhile isLineEnd
    if validUtf8 text then .ok text else .error .invalidUtf8

/-- What a capture delivered, the lines it logged as rejected, and the error it ended with. -/
structure LiveCapture (Record : Type) where
  records : List Record := []
  decodeRejected : Nat := 0
  tooLarge : Nat := 0
  error : Option StreamError := none
  deriving DecidableEq

section Loop

variable {Record : Type} (parse : List UInt8 → Option Record) (limit : Nat)

def LiveCapture.readText (captured : LiveCapture Record) (text : List UInt8) :
    LiveCapture Record :=
  if text.length ≤ limit then
    match parse text with
    | some record => { captured with records := captured.records ++ [record] }
    | none => { captured with decodeRejected := captured.decodeRejected + 1 }
  else { captured with tooLarge := captured.tooLarge + 1 }

def captureLoop (captured : LiveCapture Record) : List (BoundedLine UInt8) → LiveCapture Record
  | [] => captured
  | line :: rest =>
    match streamLine line with
    | .ok text => captureLoop (captured.readText parse limit text) rest
    | .error error => { captured with error := some error }

def liveCapture (input : List UInt8) : LiveCapture Record :=
  captureLoop parse limit {} (boundedLines lineFeed limit input.length input)

end Loop

def streams (limit : Nat) (line : List UInt8) : Bool :=
  line.length ≤ limit && validUtf8 (line.rdropWhile isLineEnd)

section Compare

variable {Record : Type} {parse : List UInt8 → Option Record} {limit : Nat}

theorem streamLine_of_streams {line : List UInt8} (goesOn : streams limit line) :
    streamLine (.of limit line) = .ok (line.rdropWhile isLineEnd) := by
  obtain ⟨short, valid⟩ := Bool.and_eq_true_iff.mp goesOn
  have notLong : ¬ limit < line.length := Nat.not_lt_of_le (of_decide_eq_true short)
  rw [BoundedLine.of, if_neg notLong, streamLine]
  exact if_pos valid

theorem streamLine_of_not_streams {line : List UInt8} (stops : streams limit line = false) :
    ∃ error, streamLine (.of limit line) = .error error := by
  by_cases long : limit < line.length
  · exact ⟨.lineTooLong, by rw [BoundedLine.of, if_pos long, streamLine]⟩
  · refine ⟨.invalidUtf8, ?_⟩
    have invalid : validUtf8 (line.rdropWhile isLineEnd) = false := by
      simpa [streams, Nat.le_of_not_lt long] using stops
    rw [BoundedLine.of, if_neg long, streamLine]
    exact if_neg (Bool.eq_false_iff.mp invalid)

section Parser

variable (stripped : ∀ line, parse (line.rdropWhile isLineEnd) = parse line)
  (blank : ∀ line, line.all isAsciiWhitespace → parse line = none)

include stripped blank in
theorem records_readText (captured : LiveCapture Record) {line : List UInt8}
    (goesOn : streams limit line) :
    (captured.readText parse limit (line.rdropWhile isLineEnd)).records =
      captured.records ++ (delivered parse limit line).toList := by
  have short : line.length ≤ limit := of_decide_eq_true (Bool.and_eq_true_iff.mp goesOn).1
  have shorter : (line.rdropWhile isLineEnd).length ≤ limit := by
    refine le_trans ?_ short
    simpa [rdropWhile] using length_dropWhile_le isLineEnd line.reverse
  have same : delivered parse limit line = parse line := by
    cases isBlank : line.all isAsciiWhitespace with
    | true => simp [delivered, isBlank, blank line isBlank]
    | false => simp [delivered, isBlank, Nat.not_lt_of_le short]
  rw [LiveCapture.readText, if_pos shorter, stripped, same]
  cases parse line with
  | none => exact (append_nil _).symm
  | some record => rfl

include stripped blank in
theorem captureLoop_spec (captured : LiveCapture Record) (input : List (List UInt8)) :
    (captureLoop parse limit captured (input.map (.of limit))).records =
      captured.records ++ (input.takeWhile (streams limit)).filterMap (delivered parse limit) := by
  induction input generalizing captured with
  | nil => simp [captureLoop]
  | cons line others hypothesis =>
    cases goesOn : streams limit line with
    | false =>
      obtain ⟨error, ends⟩ := streamLine_of_not_streams goesOn
      rw [map_cons, captureLoop, ends, takeWhile_cons_of_neg (by simp [goesOn])]
      exact (append_nil _).symm
    | true =>
      rw [map_cons, captureLoop, streamLine_of_streams goesOn,
        takeWhile_cons_of_pos goesOn]
      refine (hypothesis _).trans ?_
      rw [records_readText stripped blank captured goesOn, append_assoc,
        ← singleton_append, filterMap_append, ← nil_append [line],
        filterMap_snoc, filterMap_nil, nil_append]

end Parser

end Compare

/-- From the same bytes, with a parser that ignores line ends and rejects blank lines, the live
loop delivers what the session reader delivers from the lines before the first that is too long or
not UTF-8. So both deliver the same if and only if no record is delivered from there on. -/
theorem live_records_eq {Record : Type} (parse : List UInt8 → Option Record)
    (stripped : ∀ line, parse (line.rdropWhile isLineEnd) = parse line)
    (blank : ∀ line, line.all isAsciiWhitespace → parse line = none) (limit : Nat)
    (input : List UInt8) :
    (liveCapture parse limit input).records =
        ((lines lineFeed input).takeWhile (streams limit)).filterMap (delivered parse limit) ∧
      (visit parse limit input).records =
        (lines lineFeed input).filterMap (delivered parse limit) ∧
      ((liveCapture parse limit input).records = (visit parse limit input).records ↔
        ∀ line ∈ (lines lineFeed input).dropWhile (streams limit),
          delivered parse limit line = none) := by
  have live : (liveCapture parse limit input).records =
      ((lines lineFeed input).takeWhile (streams limit)).filterMap (delivered parse limit) := by
    rw [liveCapture, boundedLines_eq limit le_rfl, captureLoop_spec stripped blank]
    rfl
  refine ⟨live, (visit_eq parse limit input).1, ?_⟩
  have whole : (lines lineFeed input).filterMap (delivered parse limit) =
      ((lines lineFeed input).takeWhile (streams limit)).filterMap (delivered parse limit) ++
        ((lines lineFeed input).dropWhile (streams limit)).filterMap (delivered parse limit) := by
    rw [← filterMap_append, takeWhile_append_dropWhile]
  rw [live, (visit_eq parse limit input).1, whole, self_eq_append_right, filterMap_eq_nil_iff]

def letterParse (line : List UInt8) : Option Unit :=
  if line.rdropWhile isLineEnd = [97] then some () else none

theorem letterParse_stripped (line : List UInt8) :
    letterParse (line.rdropWhile isLineEnd) = letterParse line := by
  rw [letterParse, rdropWhile_idempotent]
  rfl

theorem letterParse_blank (line : List UInt8) (isBlank : line.all isAsciiWhitespace) :
    letterParse line = none := by
  refine if_neg fun isLetter => ?_
  have member : (97 : UInt8) ∈ line := by
    have among : (97 : UInt8) ∈ line.rdropWhile isLineEnd := by simp [isLetter]
    rw [rdropWhile, mem_reverse] at among
    exact mem_reverse.mp ((dropWhile_sublist _).subset among)
  exact absurd (all_eq_true.mp isBlank 97 member) (by decide)

theorem live_records_eq_letter :
    (liveCapture letterParse defaultMaxLineBytes [97, 13, 10, 98, 10, 10, 97]).records =
      (visit letterParse defaultMaxLineBytes [97, 13, 10, 98, 10, 10, 97]).records :=
  (live_records_eq letterParse letterParse_stripped letterParse_blank defaultMaxLineBytes _).2.2.mpr
    (by decide +kernel)

/-- After one line that is not UTF-8 the session reader delivers the next record, and the live
loop has ended. -/
theorem live_loop_stops_at_invalid_line :
    (visit letterParse defaultMaxLineBytes [255, 10, 97, 10]).records = [()] ∧
      (visit letterParse defaultMaxLineBytes [255, 10, 97, 10]).rejected = 1 ∧
      liveCapture letterParse defaultMaxLineBytes [255, 10, 97, 10] =
        { error := some .invalidUtf8 } := by
  decide +kernel

end EbpfStudio
