/-
This file models the configuration of a capture: which requests it is about, which of them are
reported in detail, and when it changes its mode by itself.

A configuration is valid if its policies and filter pass the checks of the source, each with its own
message. What a filter means is said here too: each list of it that is not empty has to have the
value of the request, and its size is between the bounds.
-/

import EbpfStudio.Protocol.Correlator

namespace EbpfStudio

inductive CaptureMode where
  | basic | balanced | deep | rawAll
  deriving DecidableEq

/-- Which requests are captured. -/
structure CaptureFilter where
  matchAll : Bool := false
  pids : List U32 := []
  tids : List U32 := []
  uids : List U32 := []
  devices : List Device := []
  files : List FileIdentity := []
  operations : List IoOperation := []
  minBytes : Option U32 := none
  maxBytes : Option U32 := none
  deriving DecidableEq

/-- Which requests are reported in detail. -/
structure DetailPolicy where
  totalLatencyNs : U64 := 5_000_000
  queueLatencyNs : U64 := 1_000_000
  deviceLatencyNs : U64 := 3_000_000
  sampleRatePermyriad : Word 16 := 100
  includeErrors : Bool := true
  includeCorrelationFailures : Bool := true
  deriving DecidableEq

/-- When the mode is changed. -/
structure TriggerPolicy where
  rule : String
  threshold : U64
  consecutiveWindows : U32
  deepDurationNs : U64
  cooldownNs : U64
  armingTimeoutNs : U64
  deriving DecidableEq

/-- The configuration of a capture. -/
structure CaptureConfig where
  generation : U64
  mode : CaptureMode
  filter : CaptureFilter
  detail : DetailPolicy
  trigger : Option TriggerPolicy
  deriving DecidableEq

inductive TriggerPolicyError where
  | emptyRule | zeroConsecutiveWindows | zeroDuration
  deriving DecidableEq

def TriggerPolicyError.message : TriggerPolicyError → String
  | emptyRule => "trigger rule must not be empty"
  | zeroConsecutiveWindows => "consecutive window count must be positive"
  | zeroDuration => "deep, cooldown and arming durations must be positive"

def isWhiteSpace (character : Char) : Bool :=
  let code := character.toNat
  (0x9 ≤ code && code ≤ 0xd) || code = 0x20 || code = 0x85 || code = 0xa0 || code = 0x1680 ||
    (0x2000 ≤ code && code ≤ 0x200a) || code = 0x2028 || code = 0x2029 || code = 0x202f ||
    code = 0x205f || code = 0x3000

def TriggerPolicy.check (policy : TriggerPolicy) : Except TriggerPolicyError Unit :=
  if policy.rule.toList.all isWhiteSpace then .error .emptyRule
  else if policy.consecutiveWindows = 0 then .error .zeroConsecutiveWindows
  else if policy.deepDurationNs = 0 || policy.cooldownNs = 0 || policy.armingTimeoutNs = 0 then
    .error .zeroDuration
  else .ok ()

inductive CaptureConfigError where
  | zeroGeneration
  | tooManyKeys (actual limit : Nat)
  | duplicateKey
  | invalidByteRange
  | invalidSampleRate
  | invalidTrigger (error : TriggerPolicyError)
  deriving DecidableEq

def CaptureConfigError.message : CaptureConfigError → String
  | zeroGeneration => "config generation must be non-zero"
  | tooManyKeys actual limit =>
    "filter key count " ++ toString actual ++ " exceeds limit " ++ toString limit
  | duplicateKey => "filter keys must not contain duplicates"
  | invalidByteRange => "minimum byte size exceeds maximum byte size"
  | invalidSampleRate => "sample rate must be at most 10,000 permyriad"
  | invalidTrigger error => "invalid trigger policy: " ++ error.message

def CaptureFilter.keyCount (filter : CaptureFilter) : Nat :=
  filter.pids.length + filter.tids.length + filter.uids.length + filter.devices.length +
    filter.files.length + filter.operations.length

def CaptureFilter.distinctKeys (filter : CaptureFilter) : Prop :=
  filter.pids.Nodup ∧ filter.tids.Nodup ∧ filter.uids.Nodup ∧ filter.devices.Nodup ∧
    filter.files.Nodup ∧ filter.operations.Nodup

instance (filter : CaptureFilter) : Decidable filter.distinctKeys := by
  unfold CaptureFilter.distinctKeys
  infer_instance

/-- The checks of a configuration. -/
def CaptureConfig.validate (config : CaptureConfig) (maxKeys : Nat) :
    Except CaptureConfigError Unit :=
  let filter := config.filter
  if config.generation = 0 then .error .zeroGeneration
  else if maxKeys < filter.keyCount then .error (.tooManyKeys filter.keyCount maxKeys)
  else if ¬ filter.distinctKeys then .error .duplicateKey
  else if filter.minBytes.any (fun minimum => filter.maxBytes.any fun maximum =>
      maximum < minimum) then .error .invalidByteRange
  else if 10_000 < config.detail.sampleRatePermyriad then .error .invalidSampleRate
  else
    match config.trigger.map TriggerPolicy.check with
    | some (.error error) => .error (.invalidTrigger error)
    | _ => .ok ()

def maxFilterKeys : Nat := 256

theorem CaptureConfig.of_validate {config : CaptureConfig} {maxKeys : Nat}
    (valid : config.validate maxKeys = .ok ()) :
    config.generation ≠ 0 ∧ config.filter.keyCount ≤ maxKeys := by
  unfold validate at valid
  dsimp only at valid
  split at valid
  · cases valid
  rename_i nonzero
  split at valid
  · cases valid
  rename_i few
  exact ⟨nonzero, not_lt.mp few⟩

structure FilteredRequest where
  pid : U32
  tid : U32
  uid : U32
  device : U32
  bytes : U32
  operation : IoOperation
  deriving DecidableEq

def kernelDevice (device : U32) : Device :=
  (Word.ofNat 32 (device.val >>> 20), Word.ofNat 32 (device.val &&& 0xfffff))

/-- Every list that is not empty has the request's value, and its size is in the range. -/
def CaptureFilter.admits (filter : CaptureFilter) (request : FilteredRequest) : Bool :=
  (filter.pids = [] || decide (request.pid ∈ filter.pids)) &&
    (filter.tids = [] || decide (request.tid ∈ filter.tids)) &&
    (filter.uids = [] || decide (request.uid ∈ filter.uids)) &&
    (filter.devices = [] || decide (kernelDevice request.device ∈ filter.devices)) &&
    (filter.operations = [] || decide (request.operation ∈ filter.operations)) &&
    filter.minBytes.all (fun minimum => minimum ≤ request.bytes) &&
    filter.maxBytes.all (fun maximum => request.bytes ≤ maximum)

end EbpfStudio
