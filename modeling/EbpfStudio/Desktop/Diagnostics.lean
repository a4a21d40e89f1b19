/-
This file models the diagnostic records of the desktop and what is removed from their details before
they are shown or written.

A detail is split into words at white space, and a word that looks like a path is replaced.
Splitting is undone by joining, so two texts are stored alike exactly if their words are equal or
hidden in both. A record is cut to a number of bytes before paths are replaced, and cut again only
if it is written.
-/

import EbpfStudio.Protocol.CaptureConfig

namespace EbpfStudio

open List Option

inductive DiagnosticLevel where
  | trace | debug | info | warn | error
  deriving DecidableEq

structure DiagnosticRecord where
  schemaVersion : Nat
  tsUnixMs : Int
  level : DiagnosticLevel
  component : String
  event : String
  sessionId : String
  bootId : String := ""
  outcome : String
  code : String
  correlationId : Option U64 := none
  nodeId : Option U64 := none
  probe : Option String := none
  durationMs : Option U64 := none
  count : Option U64 := none
  detail : Option String := none
  deriving DecidableEq

def schemaVersion : Nat := 8

def byteLength (text : List Char) : Nat := (text.map Char.utf8Size).sum

def floorCharBoundary : Nat → List Char → List Char
  | _, [] => []
  | limit, character :: rest =>
    if character.utf8Size ≤ limit then
      character :: floorCharBoundary (limit - character.utf8Size) rest
    else []

def truncateString (value : String) (limit : Nat) : String :=
  if limit < byteLength value.toList then String.ofList (floorCharBoundary limit value.toList)
  else value

def DiagnosticRecord.bounded (record : DiagnosticRecord) : DiagnosticRecord :=
  { record with
    component := truncateString record.component 128
    event := truncateString record.event 128
    sessionId := truncateString record.sessionId 128
    bootId := truncateString record.bootId 128
    outcome := truncateString record.outcome 64
    code := truncateString record.code 128
    probe := record.probe.map (truncateString · 256)
    detail := record.detail.map (truncateString · 4096) }

def splitWhitespace (text : List Char) : List (List Char) :=
  (text.splitOnP isWhiteSpace).filter fun token => !token.isEmpty

def containsText (text : String) (token : List Char) : Bool :=
  token.tails.any fun rest => text.toList.isPrefixOf rest

/-- The second byte is a colon, so the first character has one byte, and there is a separator. -/
def windowsPath : List Char → Bool
  | first :: ':' :: rest => first.utf8Size = 1 && (first :: ':' :: rest).any (· ∈ ['\\', '/'])
  | _ => false

def looksLikePath (token : List Char) : Bool :=
  containsText "/data/" token || containsText "/storage/" token || token.head? = some '/' ||
    windowsPath token

def redactToken (token : List Char) : List Char :=
  if looksLikePath token then "<redacted-path>".toList else token

def sanitizeDetail (detail : String) : String :=
  String.ofList (List.intercalate [' '] ((splitWhitespace detail.toList).map redactToken))

def sanitizeRecord (record : DiagnosticRecord) : DiagnosticRecord :=
  { record with detail := record.detail.map sanitizeDetail }

def parseAgentDiagnostic (decode : String → Except String DiagnosticRecord) (nowUnixMs : Int)
    (line sessionId : String) : DiagnosticRecord :=
  let record := match decode line with
    | .ok record => record
    | .error error =>
      { schemaVersion := schemaVersion
        tsUnixMs := nowUnixMs
        level := .warn
        component := "desktop.capture"
        event := "agent.diagnostic.decode"
        sessionId := sessionId
        outcome := "rejected"
        code := "AGENT_DIAGNOSTIC_INVALID"
        detail := some (error ++ "; line=" ++ line) }
  sanitizeRecord record.bounded

def hostRecord (nowUnixMs : Int) (sessionId : String) (level : DiagnosticLevel)
    (event code outcome : String) (detail : Option String) : DiagnosticRecord :=
  sanitizeRecord (DiagnosticRecord.bounded
    { schemaVersion := schemaVersion
      tsUnixMs := nowUnixMs
      level := level
      component := "desktop.capture"
      event := event
      sessionId := sessionId
      outcome := outcome
      code := code
      detail := detail })

def appendedRecord (record : DiagnosticRecord) : DiagnosticRecord := (sanitizeRecord record).bounded

theorem splitWhitespace_append (before after : List Char) {space : Char}
    (isSpace : isWhiteSpace space = true) :
    splitWhitespace (before ++ space :: after) =
      splitWhitespace before ++ splitWhitespace after := by
  rw [splitWhitespace, splitOnP_append_cons _ _ isSpace, filter_append]
  rfl

theorem truncateString_of_le {value : String} {limit : Nat}
    (short : byteLength value.toList ≤ limit) : truncateString value limit = value :=
  if_neg (not_lt.mpr short)

def DiagnosticRecord.detailWithin (record : DiagnosticRecord) : Prop :=
  ∀ detail, record.detail = some detail → byteLength detail.toList ≤ 4096

/-- What the decoder leaves of a line: the detail that was sent, or the error with the line. -/
def decodedDetail (decode : String → Except String DiagnosticRecord) (line : String) :
    Option String :=
  match decode line with
  | .ok record => record.detail
  | .error error => some (error ++ "; line=" ++ line)

/-- The words of the first 4096 bytes fit in the limit when each path among them counts as the
fifteen bytes that replace it, and the spaces between them are counted. -/
def RedactedFits (detail : String) : Prop :=
  let words := splitWhitespace (truncateString detail 4096).toList
  (words.map fun word => if looksLikePath word then 15 else byteLength word).sum +
    (words.length - 1) ≤ 4096

theorem byteLength_floorCharBoundary (limit : Nat) (text : List Char) :
    byteLength (floorCharBoundary limit text) ≤ limit := by
  induction text generalizing limit with
  | nil => exact Nat.zero_le limit
  | cons character rest hypothesis =>
    have bound := hypothesis (limit - character.utf8Size)
    grind [floorCharBoundary, byteLength]

theorem byteLength_truncateString (value : String) (limit : Nat) :
    byteLength (truncateString value limit).toList ≤ limit := by
  unfold truncateString
  split
  case isTrue => simpa using byteLength_floorCharBoundary limit value.toList
  case isFalse short => exact not_lt.mp short

theorem byteLength_intercalate (words : List (List Char)) :
    byteLength (List.intercalate [' '] words) =
      (words.map byteLength).sum + (words.length - 1) := by
  have space : Char.utf8Size ' ' = 1 := by decide
  induction words with
  | nil => rfl
  | cons word rest hypothesis =>
    cases rest with grind [byteLength, List.intercalate_cons_cons, List.intercalate_singleton]

theorem byteLength_sanitizeDetail (detail : String) :
    byteLength (sanitizeDetail (truncateString detail 4096)).toList ≤ 4096 ↔
      RedactedFits detail := by
  have word (token : List Char) : byteLength (redactToken token) =
      if looksLikePath token then 15 else byteLength token := by
    unfold redactToken
    split
    · decide
    · rfl
  unfold sanitizeDetail RedactedFits
  rw [String.toList_ofList, byteLength_intercalate, List.map_map, List.length_map]
  simp only [Function.comp_def, word]

theorem detailWithin_sanitizeRecord (record : DiagnosticRecord) :
    (sanitizeRecord record.bounded).detailWithin ↔
      ∀ detail, record.detail = some detail → RedactedFits detail := by
  unfold DiagnosticRecord.detailWithin sanitizeRecord DiagnosticRecord.bounded
  cases record.detail with
  | none => simp
  | some detail => simp [byteLength_sanitizeDetail]

/-- A record that is made from an error or from a line of the agent is cut before its paths are
replaced, so its detail is bounded if and only if the replaced text fits. A record that is written
is cut afterwards and always fits. -/
theorem stored_detail_is_bounded_iff (decode : String → Except String DiagnosticRecord)
    (nowUnixMs : Int) (line sessionId event code outcome : String) (level : DiagnosticLevel)
    (detail : Option String) (record : DiagnosticRecord) :
    ((hostRecord nowUnixMs sessionId level event code outcome detail).detailWithin ↔
      ∀ text, detail = some text → RedactedFits text) ∧
    ((parseAgentDiagnostic decode nowUnixMs line sessionId).detailWithin ↔
      ∀ text, decodedDetail decode line = some text → RedactedFits text) ∧
    (appendedRecord record).detailWithin := by
  refine ⟨detailWithin_sanitizeRecord _, ?_, fun detail given => ?_⟩
  · unfold parseAgentDiagnostic decodedDetail
    cases decode line with
    | ok record => exact detailWithin_sanitizeRecord record
    | error error => exact detailWithin_sanitizeRecord _
  · obtain ⟨text, _, rfl⟩ := map_eq_some_iff.mp given
    exact byteLength_truncateString text 4096

/-- A detail of three hundred single slashes: each of them is a path and takes fifteen bytes. -/
theorem redacted_detail_exceeds_limit :
    ¬(hostRecord 0 "s" .warn "e" "c" "o"
      (some (String.ofList (List.replicate 300 ['/', ' ']).flatten))).detailWithin := by
  have words (count : Nat) : splitWhitespace (replicate count ['/', ' ']).flatten =
      replicate count ['/'] := by
    induction count with
    | zero => rfl
    | succ count hypothesis =>
      rw [replicate_succ, flatten_cons, replicate_succ, ← hypothesis]
      exact splitWhitespace_append ['/'] _ (by decide)
  have size (count : Nat) : byteLength (replicate count ['/', ' ']).flatten = count * 2 := by
    have two : ((['/', ' '].map Char.utf8Size)).sum = 2 := by decide
    rw [byteLength, map_flatten, sum_flatten, map_replicate, map_replicate,
      sum_replicate_nat, two]
  have path : looksLikePath ['/'] = true := by decide
  have long (count : Nat) (short : count * 2 ≤ 4096)
      (fits : RedactedFits (String.ofList (replicate count ['/', ' ']).flatten)) :
      count * 15 + (count - 1) ≤ 4096 := by
    unfold RedactedFits at fits
    rw [truncateString_of_le, String.toList_ofList, words] at fits
    · dsimp only at fits
      rwa [map_replicate, path, if_pos rfl, sum_replicate_nat, length_replicate] at fits
    · exact ((congrArg byteLength String.toList_ofList).trans (size count)).trans_le short
  intro within
  have fits := (detailWithin_sanitizeRecord _).mp within _ rfl
  exact absurd (long 300 (by decide) fits) (by decide)

end EbpfStudio
