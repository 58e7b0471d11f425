import RustyImap.Credentials
import RustyImap.ProtectedFolders

/-!
# Checks of one configuration block

`rimap-config/src/validate/`: the TLS fingerprint of `identity.rs` (with
`rimap-core/src/tls.rs`), `limits.rs`, `rules.rs` and, on Unix, `paths.rs` over a
file system that is a parameter.
-/

namespace RustyImap.Config

open RustyImap.ProtectedFolders (NameLibs normalizeFolderName)

/-! ## TLS fingerprint -/

structure TlsFingerprint where
  bytes : List UInt8
  length_eq : bytes.length = 32
deriving DecidableEq

inductive FingerprintParseError where
  | wrongLength (got : Nat)
  | nonHex (ch : Char)
deriving DecidableEq, Repr

def FingerprintParseError.display : FingerprintParseError → String
  | .wrongLength got => "fingerprint must be 64 hex chars, got " ++ toString got
  | .nonHex ch => "non-hex character `" ++ ch.toString ++ "` in fingerprint"

def hexValue (c : Char) : Option UInt8 :=
  if '0' ≤ c ∧ c ≤ '9' then some (c.toNat - '0'.toNat).toUInt8
  else if 'a' ≤ c ∧ c ≤ 'f' then some (c.toNat - 'a'.toNat + 10).toUInt8
  else if 'A' ≤ c ∧ c ≤ 'F' then some (c.toNat - 'A'.toNat + 10).toUInt8
  else none

/-- `hex::decode`. -/
def hexDecode : List Char → Option (List UInt8)
  | [] => some []
  | [_] => none
  | high :: low :: rest => do
      let h ← hexValue high
      let l ← hexValue low
      let bytes ← hexDecode rest
      return (h * 16 + l) :: bytes

def TlsFingerprint.fromHex (s : String) : Except FingerprintParseError TlsFingerprint :=
  let cleaned := s.toList.filter (· != ':')
  let len := utf8Len (.ofList cleaned)
  if len ≠ 64 then .error (.wrongLength len)
  else
    match cleaned.find? fun c => (hexValue c).isNone with
    | some c => .error (.nonHex c)
    | none =>
        match hexDecode cleaned with
        | none => .error (.wrongLength len)
        | some bytes =>
            if h : bytes.length = 32 then .ok ⟨bytes, h⟩ else .error (.wrongLength len)

def parseFingerprint : Option String → Except ConfigError (Option TlsFingerprint)
  | none => .ok none
  | some raw =>
      match TlsFingerprint.fromHex raw with
      | .ok fp => .ok (some fp)
      | .error e => .error (.tlsFingerprint e.display)

/-! ## Limits -/

/-- Refuse the first field of the table that reads zero. -/
def rejectZero {T : Type} (block : T) : List (String × (T → UInt64)) → Except ConfigError Unit
  | [] => .ok ()
  | (field, accessor) :: checks =>
      if accessor block = 0 then .error (.invalidLimit field "must be > 0")
      else rejectZero block checks

def IMAP_CHECKS : List (String × (ImapConfig → UInt64)) :=
  [("imap.command_timeout_seconds", fun i => i.commandTimeoutSeconds.toUInt64),
   ("imap.connect_timeout_seconds", fun i => i.connectTimeoutSeconds.toUInt64)]

def SMTP_CHECKS : List (String × (SmtpConfig → UInt64)) :=
  [("smtp.command_timeout_seconds", fun s => s.commandTimeoutSeconds.toUInt64)]

def validateTimeouts (imap : ImapConfig) (smtp : Option SmtpConfig) : Except ConfigError Unit := do
  rejectZero imap IMAP_CHECKS
  match smtp with
  | some smtp => rejectZero smtp SMTP_CHECKS
  | none => .ok ()

def U64_MAX : Nat := 2 ^ 64 - 1

/-- `u64::saturating_add` and `u64::saturating_mul`. -/
def saturatingAdd (a b : Nat) : Nat := min (a + b) U64_MAX

def saturatingMul (a b : Nat) : Nat := min (a * b) U64_MAX

/-- Two attempts, each with two stages of a command timeout and one connect. -/
def imapOperationBoundedSeconds (imap : ImapConfig) : Nat :=
  saturatingMul
    (saturatingAdd (saturatingMul 2 imap.commandTimeoutSeconds.toNat)
      imap.connectTimeoutSeconds.toNat)
    2

def validateToolCallCeiling (imap : ImapConfig) (smtp : Option SmtpConfig)
    (limits : LimitsConfig) : Except ConfigError Unit :=
  let imapSeconds := imapOperationBoundedSeconds imap
  let smtpSeconds := smtp.elim 0 fun s => s.commandTimeoutSeconds.toNat
  let minimum := saturatingAdd imapSeconds smtpSeconds
  if minimum ≤ limits.toolCallTimeoutSeconds.toNat then .ok ()
  else
    let smtpTerm := smtp.elim "" fun s =>
      " + smtp.command_timeout_seconds " ++ toString s.commandTimeoutSeconds ++
        "s for the send that precedes the Sent-folder append"
    .error (.invalidLimit "limits.tool_call_timeout_seconds"
      (toString limits.toolCallTimeoutSeconds ++ "s is below the " ++ toString minimum ++
        "s a tool call can take with every per-stage deadline still honouring it " ++
        "(2 attempts x (2 x imap.command_timeout_seconds " ++
        toString imap.commandTimeoutSeconds ++ "s + imap.connect_timeout_seconds " ++
        toString imap.connectTimeoutSeconds ++ "s)" ++ smtpTerm ++
        "); raise the ceiling or lower the per-stage timeouts"))

def ZERO_CHECKS : List (String × (LimitsConfig → UInt64)) :=
  [("limits.commands_per_second", fun l => l.commandsPerSecond.toUInt64),
   ("limits.drafts_per_minute", fun l => l.draftsPerMinute.toUInt64),
   ("limits.sends_per_minute", fun l => l.sendsPerMinute.toUInt64),
   ("limits.circuit_breaker_error_threshold", fun l => l.circuitBreakerErrorThreshold.toUInt64),
   ("limits.circuit_breaker_window_seconds", fun l => l.circuitBreakerWindowSeconds.toUInt64),
   ("limits.max_search_results", fun l => l.maxSearchResults.toUInt64),
   ("limits.max_fetch_body_bytes", fun l => l.maxFetchBodyBytes),
   ("limits.max_attachment_bytes", fun l => l.maxAttachmentBytes),
   ("limits.max_append_bytes", fun l => l.maxAppendBytes),
   ("limits.tool_call_timeout_seconds", fun l => l.toolCallTimeoutSeconds.toUInt64)]

def validateLimits (limits : LimitsConfig) : Except ConfigError Unit := do
  rejectZero limits ZERO_CHECKS
  if limits.maxSearchResultsCap < limits.maxSearchResults then
    .error (.invalidLimit "limits.max_search_results"
      ("default " ++ toString limits.maxSearchResults ++ " exceeds cap " ++
        toString limits.maxSearchResultsCap))
  else .ok ()

/-! ## Rules -/

/-- The first expunge folder that is also protected, up to spelling. -/
def validateFolderSafety (libs : NameLibs) (security : SecurityConfig) : Except ConfigError Unit :=
  let guarded := security.protectedFolders.map (normalizeFolderName libs) ++ ["inbox"]
  match security.expungeFolders.find? fun folder =>
      guarded.contains (normalizeFolderName libs folder) with
  | some folder => .error (.conflictingFolders folder)
  | none => .ok ()

def validateSmtpRequired (security : SecurityConfig) (toolOverrides : Overrides)
    (smtp : Option SmtpConfig) : Except ConfigError Unit :=
  let sendEmailBase := baseAllows security.posture .sendEmail
  let sendEmailEffective :=
    match toolOverrides .sendEmail with
    | some .allow => true
    | some .deny => false
    | none => sendEmailBase
  if sendEmailEffective && smtp.isNone then
    -- the posture is to blame wherever it allows the tool itself
    if !sendEmailBase && toolOverrides .sendEmail == some .allow then
      .error (.smtpRequiredByOverride security.posture)
    else .error (.smtpRequired security.posture)
  else .ok ()

def validateSmtpEncryption : Option SmtpConfig → Except ConfigError Unit
  | none => .ok ()
  | some smtp =>
      if smtp.encryption = .none ∧
          ¬ (smtp.host = "localhost" ∨ smtp.host = "127.0.0.1" ∨ smtp.host = "::1") then
        .error (.smtpPlaintextDenied smtp.host)
      else .ok ()

/-- `ToolName::from_str`. -/
def parseToolName (name : String) : Except ConfigError ToolName :=
  match ToolName.fromStr name with
  | some tool => .ok tool
  | none => .error (.toolOverride (.unknown name))

def resolveToolOverrides (security : SecurityConfig) : Except ConfigError Overrides :=
  security.tools.toList.foldlM
    (fun out entry => do
      let tool ← parseToolName entry.1
      return Function.update out tool (some entry.2))
    (fun _ => none)

/-! ## Paths -/

structure Metadata where
  isDir : Bool
  isSymlink : Bool
  mode : Nat
deriving DecidableEq, Repr

/-- No write bit at all. -/
def Metadata.readonly (info : Metadata) : Bool := info.mode &&& 0o222 == 0

/-- What validation asks the system; a failure is the text of its error. -/
structure FileSystem where
  present : Path → Bool       -- `Path::exists`
  metadata : Path → Except String Metadata
  symlinkMetadata : Path → Except String Metadata
  canonicalize : Path → Except String Path
  dataLocalDir : Option Path

/-- `{:o}`. -/
def octal (mode : Nat) : String := .ofList (Nat.toDigits 8 mode)

def orNotWritable {α : Type} (path : Path) (what : String) : Except String α → Except ConfigError α
  | .ok a => .ok a
  | .error e => .error (.pathNotWritable path (what ++ ": " ++ e))

def orMissing {α : Type} (path : Path) (reason : String) : Option α → Except ConfigError α
  | some a => .ok a
  | none => .error (.pathNotWritable path reason)

section Paths

variable (fs : FileSystem)

def validateAuditConfig (audit : AuditConfig) : Except ConfigError Unit :=
  if audit.retentionSeconds = some 0 then
    .error (.invalidLimit "audit.retention_seconds"
      "must be > 0 (use None / omit the field to disable time-based retention)")
  else .ok ()

def requireWritableDir (dir : Path) : Except ConfigError Unit := do
  if !fs.present dir then .error (.pathNotWritable dir "directory does not exist")
  else
    let info ← orNotWritable dir "stat failed" (fs.metadata dir)
    if !info.isDir then .error (.pathNotWritable dir "not a directory")
    else if info.readonly then .error (.pathNotWritable dir "directory is read-only")
    else .ok ()

def enforceAuditContainment (audit : AuditConfig) : Except ConfigError Unit := do
  let parent ← orMissing audit.path "audit path has no parent directory" audit.path.parent
  let canonParent ← orNotWritable parent "canonicalize parent" (fs.canonicalize parent)
  let fileName ← orMissing audit.path "audit path has no file name" audit.path.fileName
  let canonPath := canonParent.join fileName
  let base ← orMissing audit.path
    "no allowed_base_dir configured and platform default unavailable"
    (audit.allowedBaseDir.or fs.dataLocalDir)
  let canonBase ← orNotWritable base "canonicalize allowed_base_dir" (fs.canonicalize base)
  if canonPath.startsWith canonBase then .ok ()
  else .error (.auditPathOutsideBase canonPath canonBase)

def validatePathsMulti (audit : AuditConfig) (attachments : AttachmentsConfig) :
    Except ConfigError Unit := do
  let auditParent ← orMissing audit.path "audit path has no parent directory" audit.path.parent
  requireWritableDir fs auditParent
  enforceAuditContainment fs audit
  if attachments.downloadDir = "" then .ok ()
  else requireWritableDir fs (.new attachments.downloadDir)

/-- Another user could swap the root through a writable parent without the sticky bit. -/
def checkExportDownloadRootParent (downloadRoot : Path) : Except ConfigError Unit := do
  let canonical ← orNotWritable downloadRoot "canonicalize download root"
    (fs.canonicalize downloadRoot)
  match canonical.parent with
  | none => .ok ()
  | some parent =>
      let info ← orNotWritable parent "cannot stat download-root parent" (fs.metadata parent)
      if info.mode &&& 0o022 ≠ 0 ∧ info.mode &&& 0o1000 = 0 then
        .error (.pathNotWritable parent
          ("export_messages download root's parent " ++ parent.display ++
            " is group/world-writable without the sticky bit (mode " ++
            octal (info.mode &&& 0o7777) ++
            "); another user could swap the download root. " ++
            "Use a server-private parent or set the sticky bit"))
      else .ok ()

def checkExportDownloadRootPrivate (downloadRoot : Path) : Except ConfigError Unit := do
  let link ← orNotWritable downloadRoot "cannot stat download root"
    (fs.symlinkMetadata downloadRoot)
  if link.isSymlink then
    .error (.pathNotWritable downloadRoot
      ("export_messages download root is a symlink; it must be a real directory so its " ++
        "resolved path cannot be redirected to an attacker-writable target"))
  else if link.mode &&& 0o022 ≠ 0 then
    .error (.pathNotWritable downloadRoot
      ("export_messages is enabled but the download root is group/world-writable (mode " ++
        octal (link.mode &&& 0o777) ++
        "); export_messages requires a server-private download root"))
  else checkExportDownloadRootParent fs downloadRoot

def validateExportDownloadRoot (attachments : AttachmentsConfig) (exportEnabled : Bool) :
    Except ConfigError Unit :=
  if !exportEnabled || attachments.downloadDir == "" then .ok ()
  else checkExportDownloadRootPrivate fs (.new attachments.downloadDir)

end Paths

end RustyImap.Config
