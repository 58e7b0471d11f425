import RustyImap.Credentials
import RustyImap.OrderedMap
import RustyImap.ToolArguments

/-!
# The audit record schema (`rimap-audit/src/record/mod.rs`, `record/ids.rs`)

The header and the seven kinds of payload, with the `auth` payload of
`rimap-core/src/auth_event.rs`.  Integers have the width they have in the
source.  A `serde_json::Value` is a tree whose objects are ordered maps.

A path is a sequence of bytes of which some are UTF-8; a date and time is the
local one with its offset, as in the `time` crate.
-/

namespace RustyImap.Record

/-! ## `serde_json::Value` -/

/-- The objects of a value are ordered maps (`Map` is a `BTreeMap`). -/
inductive Canonical : Json → Prop where
  | null : Canonical .null
  | bool (b : Bool) : Canonical (.bool b)
  | number (literal : String) : Canonical (.number literal)
  | string (s : String) : Canonical (.string s)
  | array {items : List Json} (hitems : ∀ v ∈ items, Canonical v) : Canonical (.array items)
  | object {fields : List (String × Json)} (hsorted : fields.Pairwise fun p q => p.1 < q.1)
      (hfields : ∀ p ∈ fields, Canonical p.2) : Canonical (.object fields)

structure Value where
  json : Json
  canonical : Canonical json

/-! ## Identifiers and times -/

abbrev Seq := UInt64

/-- `Ulid`: 128 bits. -/
abbrev ProcessId := Fin (2 ^ 128)

def isLeapYear (year : Int) : Bool := year % 4 == 0 && (year % 100 != 0 || year % 400 == 0)

def daysInMonth (year : Int) (month : Nat) : Nat :=
  if month = 2 then (if isLeapYear year then 29 else 28)
  else if month = 4 ∨ month = 6 ∨ month = 9 ∨ month = 11 then 30
  else 31

/-- `time::OffsetDateTime`; the offset is in seconds. -/
structure OffsetDateTime where
  year : Int
  month : Nat
  day : Nat
  hour : Nat
  minute : Nat
  second : Nat
  nanosecond : Nat
  offset : Int
  hyear : -9999 ≤ year ∧ year ≤ 9999
  hmonth : 1 ≤ month ∧ month ≤ 12
  hday : 1 ≤ day ∧ day ≤ daysInMonth year month
  htime : hour < 24 ∧ minute < 60 ∧ second < 60 ∧ nanosecond < 1000000000
deriving DecidableEq

/-- `Timestamp`: no finer than milliseconds. -/
structure Timestamp where
  dateTime : OffsetDateTime
  millis : dateTime.nanosecond % 1000000 = 0
deriving DecidableEq

def truncateNanosecond (ns : Nat) : Nat := min ns 999999999 / 1000000 * 1000000

theorem truncateNanosecond_lt (ns : Nat) : truncateNanosecond ns < 1000000000 := by
  unfold truncateNanosecond
  omega

theorem truncateNanosecond_mod (ns : Nat) : truncateNanosecond ns % 1000000 = 0 :=
  Nat.mul_mod_left _ _

/-- `Timestamp::from_offset`. -/
def Timestamp.fromOffset (dt : OffsetDateTime) : Timestamp where
  dateTime :=
    { dt with
      nanosecond := truncateNanosecond dt.nanosecond
      htime := ⟨dt.htime.1, dt.htime.2.1, dt.htime.2.2.1, truncateNanosecond_lt dt.nanosecond⟩ }
  millis := truncateNanosecond_mod dt.nanosecond

inductive PathBuf where
  | utf8 (path : String)
  | other (bytes : List UInt8)     -- not UTF-8
deriving DecidableEq, Repr

/-! ## Parts of the payloads -/

inductive PostureEffective where
  | account (posture : Posture)
  | infrastructure
deriving DecidableEq, Repr

inductive ProcessEndReason where
  | signalInt
  | signalTerm
  | eof
  | error
deriving DecidableEq, Repr

structure AccountSummary where
  name : String
  posture : Posture
  imapHost : String
deriving DecidableEq, Repr

inductive VerdictSource where
  | account
  | inherited
deriving DecidableEq, Repr

structure ToolVerdict where
  tool : ToolName
  allow : Bool
  source : VerdictSource
deriving DecidableEq, Repr

inductive FolderSource where
  | account
  | inherited
  | discovered
deriving DecidableEq, Repr

inductive SpecialUseDiscovery where
  | notRun
  | ran
deriving DecidableEq, Repr

structure FolderEntry where
  folder : String
  source : FolderSource
deriving DecidableEq, Repr

structure AccountToolMatrix where
  account : String
  posture : Posture
  tools : List ToolVerdict
  protectedFolders : List FolderEntry
  specialUseDiscovery : SpecialUseDiscovery
  expungeFolders : List FolderEntry
deriving DecidableEq, Repr

inductive AuthResult where
  | success
  | failure
deriving DecidableEq, Repr

inductive ToolStatus where
  | ok
  | error
  | cancelled
deriving DecidableEq, Repr

/-- `rimap-core/src/warning.rs`, in declaration order. -/
inductive WarningCode where
  | unicodeZeroWidthStripped
  | unicodeBidiOverrideStripped
  | unicodeC0C1Stripped
  | parseHeaderSmugglingBlocked
  | parseMimeTypeMismatch
  | parseBodystructureTypeMismatch
  | parseAttachmentPolyglot
  | parseBodyTruncated
  | parseMimeDepthExceeded
  | parseMimePartCountExceeded
  | parseHeaderCountExceeded
  | parseAttachmentFilenameRewritten
  | htmlHiddenContentDetected
  | htmlLinkTextHrefMismatch
  | htmlScriptStripped
  | htmlStyleStripped
  | htmlRemoteImageStripped
  | htmlAnchorUnparsableHref
  | lookalikeMixedScript
  | lookalikeHomographDomain
  | lookalikeIdnPunycode
  | lookalikeFilenameExtensionSpoof
  | serverNonAtomicMoveFallback
  | serverFolderWideExpungeDataLoss
deriving DecidableEq, Repr

structure AttachmentProvenance where
  filename : String
  bytes : UInt64
deriving DecidableEq

structure ResultSummary where
  messageIdsReturned : List String
  bytesReturned : UInt64
  truncated : Bool
  securityWarningsEmitted : List WarningCode
  artifactPath : Option String
  artifactSha256 : Option String
  artifactBytes : Option UInt64
  uidsExported : List UInt32
  uidsFailed : List UInt32
  attachmentsSent : List AttachmentProvenance
deriving DecidableEq

structure Provenance where
  windowSeconds : UInt32
  messageIdsRecentlyRead : List String
deriving DecidableEq

/-! ## Payloads -/

structure ProcessStart where
  version : String
  gitCommit : String
  posture : Option Posture
  accounts : Option (List AccountSummary)
  toolMatrix : List AccountToolMatrix
  configPath : PathBuf
  configHashSha256 : String
  previousLastSeq : Option Seq
  previousProcessId : Option ProcessId
  previousFileInode : UInt64
  auditFileInodeChanged : Bool
deriving DecidableEq

structure ProcessEnd where
  reason : ProcessEndReason
  totalToolCalls : UInt64
  recordsLost : UInt64
  undrainedDispatches : UInt64
  drainerAbortedRecords : UInt64
deriving DecidableEq

/-- `Host` and `Username` are transparent. -/
structure AuthEvent where
  account : Option String
  result : AuthResult
  host : String
  port : UInt16
  username : String
  tlsFingerprintSha256 : Option String
  fingerprintMatch : Option Bool
  errorCode : Option ErrorCode
  credentialSource : Option Config.CredentialSource
deriving DecidableEq

structure ToolStart where
  account : Option String
  tool : ToolName
  postureEffective : PostureEffective
  argumentsRedacted : Value
  argumentsHashSha256 : String

structure ToolEnd where
  account : Option String
  startSeq : Seq
  tool : ToolName
  status : ToolStatus
  errorCode : Option ErrorCode
  durationMs : UInt64
  resultSummary : ResultSummary
  provenance : Provenance
deriving DecidableEq

structure ConfigEvent where
  path : PathBuf
  hashSha256 : String
deriving DecidableEq

structure FolderPolicy where
  account : String
  protectedFolders : List FolderEntry
  specialUseDiscovery : SpecialUseDiscovery
  expungeFolders : List FolderEntry
deriving DecidableEq

inductive Payload where
  | processStart (start : ProcessStart)
  | processEnd (ending : ProcessEnd)
  | auth (event : AuthEvent)
  | toolStart (start : ToolStart)
  | toolEnd (ending : ToolEnd)
  | config (event : ConfigEvent)
  | folderPolicy (policy : FolderPolicy)

structure AuditRecord where
  seq : Seq
  ts : Timestamp
  processId : ProcessId
  payload : Payload

end RustyImap.Record
