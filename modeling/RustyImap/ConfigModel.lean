import RustyImap.ToolCatalog
import Mathlib.Data.Finset.Basic

/-!
# The configuration file

The shapes of `rimap-config/src/model.rs` with their defaults, the layer that one
account may write over them, and `ConfigError` (`rimap-config/src/error.rs`).  Of
the legacy single-account `Config` nothing is here: it is another root over the same
blocks.

A `BTreeMap` is a `Std.TreeMap`, a field that serde fills in is a field with a
default, and a path is its list of components.
-/

namespace RustyImap.Config

/-! ## Paths -/

/-- `std::path::Path`, by its components. -/
structure Path where
  absolute : Bool
  components : List String
deriving DecidableEq, Repr

namespace Path

/-- `Path::new`: empty components and inner dots carry nothing. -/
def new (s : String) : Path where
  absolute := s.toList.head? == some '/'
  components :=
    match (splitSlashes s.toList).map String.ofList with
    | "." :: rest => "." :: rest.filter keeps
    | parts => parts.filter keeps
where
  splitSlashes : List Char → List (List Char)
    | [] => [[]]
    | '/' :: rest => [] :: splitSlashes rest
    | c :: rest =>
        match splitSlashes rest with
        | [] => [[c]]
        | part :: parts => (c :: part) :: parts
  keeps (part : String) : Bool := part != "" && part != "."

def parent (path : Path) : Option Path :=
  if path.components = [] then none
  else some { path with components := path.components.dropLast }

def fileName (path : Path) : Option String :=
  path.components.getLast?.filter fun part => part != ".." && part != "."

def join (path : Path) (name : String) : Path :=
  { path with components := path.components ++ [name] }

def startsWith (path base : Path) : Bool :=
  path.absolute == base.absolute && base.components.isPrefixOf path.components

def display (path : Path) : String :=
  (if path.absolute then "/" else "") ++ String.intercalate "/" path.components

end Path

/-! ## Errors -/

/-- `rimap_core::tool::ParseToolNameError`. -/
inductive ParseToolNameError where
  | unknown (name : String)
deriving DecidableEq, Repr

/-- The variants that validation and credential resolution return. -/
inductive ConfigError where
  | toolOverride (err : ParseToolNameError)
  | tlsFingerprint (reason : String)
  | pathNotWritable (path : Path) (reason : String)
  | auditPathOutsideBase (path base : Path)
  | invalidLimit (field reason : String)
  | noCredential (host accountTag reason : String)
  | keychain (host accountTag : String)
  | smtpRequired (posture : Posture)
  | smtpRequiredByOverride (posture : Posture)
  | conflictingFolders (folder : String)
  | smtpPlaintextDenied (host : String)
  | duplicateAccountName (name : String)
  | invalidAccountName (err : InvalidAccountName)
  | noAccounts
deriving DecidableEq, Repr

/-! ## Blocks -/

inductive ImapEncryption where
  | tls
  | starttls
deriving DecidableEq, Repr

structure ImapConfig where
  host : String
  port : UInt16
  username : String
  encryption : ImapEncryption := .tls
  tlsFingerprintSha256 : Option String := none
  commandTimeoutSeconds : UInt32 := 30
  connectTimeoutSeconds : UInt32 := 10
deriving DecidableEq, Repr

/-- How credential resolution falls back when the keyring has no entry. -/
inductive FallbackMode where
  | keyringThenEnv
  | keyringOnly
deriving DecidableEq, Repr

structure CredentialsConfig where
  fallback : FallbackMode := .keyringThenEnv
deriving DecidableEq, Repr

inductive SmtpEncryption where
  | starttls
  | tls
  | none
deriving DecidableEq, Repr

structure SmtpConfig where
  host : String
  port : UInt16
  encryption : SmtpEncryption
  username : String
  commandTimeoutSeconds : UInt32 := 30
deriving DecidableEq, Repr

structure LookalikeConfig where
  enabled : Bool := true
  knownDomains : List String := []
  warnOnAnyNonAsciiDomain : Bool := false
deriving DecidableEq, Repr

/-- `[security.tools]` as it is written: raw names. -/
abbrev ToolTable := Std.TreeMap String Verdict

structure SecurityConfig where
  posture : Posture := .draftSafe
  tools : ToolTable := ∅
  protectedFolders : List String := ["INBOX", "Sent", "Drafts", "Trash"]
  expungeFolders : List String := []
  lookalike : LookalikeConfig := {}

structure LimitsConfig where
  maxSearchResults : UInt32 := 200
  maxSearchResultsCap : UInt32 := 1000
  maxFetchBodyBytes : UInt64 := 5242880
  maxAttachmentBytes : UInt64 := 26214400
  maxAppendBytes : UInt64 := 10485760
  commandsPerSecond : UInt32 := 10
  draftsPerMinute : UInt32 := 5
  sendsPerMinute : UInt32 := 3
  circuitBreakerErrorThreshold : UInt32 := 5
  circuitBreakerWindowSeconds : UInt32 := 30
  toolCallTimeoutSeconds : UInt32 := 300
deriving DecidableEq, Repr

/-- What validation reads of `[audit]`. -/
structure AuditConfig where
  path : Path
  retentionSeconds : Option UInt64 := none
  allowedBaseDir : Option Path := none
deriving DecidableEq, Repr

structure AttachmentsConfig where
  downloadDir : String := ""
deriving DecidableEq, Repr

structure DefaultsConfig where
  security : SecurityConfig := {}
  limits : LimitsConfig := {}
  credentials : CredentialsConfig := {}

/-! ## What one account writes over the defaults -/

structure AccountLimitsOverrides where
  maxSearchResults : Option UInt32 := none
  maxSearchResultsCap : Option UInt32 := none
  maxFetchBodyBytes : Option UInt64 := none
  maxAttachmentBytes : Option UInt64 := none
  maxAppendBytes : Option UInt64 := none
  commandsPerSecond : Option UInt32 := none
  draftsPerMinute : Option UInt32 := none
  sendsPerMinute : Option UInt32 := none
  circuitBreakerErrorThreshold : Option UInt32 := none
  circuitBreakerWindowSeconds : Option UInt32 := none
  toolCallTimeoutSeconds : Option UInt32 := none
deriving DecidableEq, Repr

def AccountLimitsOverrides.mergeOnto (self : AccountLimitsOverrides) (base : LimitsConfig) :
    LimitsConfig where
  maxSearchResults := self.maxSearchResults.getD base.maxSearchResults
  maxSearchResultsCap := self.maxSearchResultsCap.getD base.maxSearchResultsCap
  maxFetchBodyBytes := self.maxFetchBodyBytes.getD base.maxFetchBodyBytes
  maxAttachmentBytes := self.maxAttachmentBytes.getD base.maxAttachmentBytes
  maxAppendBytes := self.maxAppendBytes.getD base.maxAppendBytes
  commandsPerSecond := self.commandsPerSecond.getD base.commandsPerSecond
  draftsPerMinute := self.draftsPerMinute.getD base.draftsPerMinute
  sendsPerMinute := self.sendsPerMinute.getD base.sendsPerMinute
  circuitBreakerErrorThreshold :=
    self.circuitBreakerErrorThreshold.getD base.circuitBreakerErrorThreshold
  circuitBreakerWindowSeconds :=
    self.circuitBreakerWindowSeconds.getD base.circuitBreakerWindowSeconds
  toolCallTimeoutSeconds := self.toolCallTimeoutSeconds.getD base.toolCallTimeoutSeconds

structure AccountLookalikeOverrides where
  enabled : Option Bool := none
  knownDomains : Option (List String) := none
  warnOnAnyNonAsciiDomain : Option Bool := none
deriving DecidableEq, Repr

def AccountLookalikeOverrides.mergeOnto (self : AccountLookalikeOverrides)
    (base : LookalikeConfig) : LookalikeConfig where
  enabled := self.enabled.getD base.enabled
  knownDomains := self.knownDomains.getD base.knownDomains
  warnOnAnyNonAsciiDomain := self.warnOnAnyNonAsciiDomain.getD base.warnOnAnyNonAsciiDomain

structure AccountSecurityOverrides where
  posture : Option Posture := none
  tools : Option ToolTable := none
  protectedFolders : Option (List String) := none
  expungeFolders : Option (List String) := none
  lookalike : Option AccountLookalikeOverrides := none

/-- The tools and the look-alike block merge per key, the folder lists are replaced
    whole. -/
def AccountSecurityOverrides.mergeOnto (self : AccountSecurityOverrides)
    (base : SecurityConfig) : SecurityConfig where
  posture := self.posture.getD base.posture
  tools :=
    match self.tools with
    | some overriding => base.tools.insertMany overriding.toList      -- `extend`
    | none => base.tools
  protectedFolders := self.protectedFolders.getD base.protectedFolders
  expungeFolders := self.expungeFolders.getD base.expungeFolders
  lookalike :=
    match self.lookalike with
    | some overriding => overriding.mergeOnto base.lookalike
    | none => base.lookalike

structure AccountCredentialsOverrides where
  fallback : Option FallbackMode := none
deriving DecidableEq, Repr

def AccountCredentialsOverrides.mergeOnto (self : AccountCredentialsOverrides)
    (base : CredentialsConfig) : CredentialsConfig where
  fallback := self.fallback.getD base.fallback

/-- One entry of `[[accounts]]`. -/
structure RawAccountConfig where
  name : String
  imap : ImapConfig
  smtp : Option SmtpConfig := none
  security : Option AccountSecurityOverrides := none
  limits : Option AccountLimitsOverrides := none
  credentials : Option AccountCredentialsOverrides := none

structure MultiAccountConfig where
  defaults : DefaultsConfig := {}
  accounts : List RawAccountConfig
  audit : AuditConfig
  attachments : AttachmentsConfig := {}

/-! ## Reading a merged table -/

/-- An extended table answers from the extension first. -/
theorem getElem?_insertMany (base overriding : ToolTable) (name : String) :
    (base.insertMany overriding.toList)[name]? = overriding[name]?.or base[name]? := by
  rcases hown : overriding[name]? with _ | verdict
  · rw [Option.none_or]
    apply Std.TreeMap.getElem?_insertMany_list_of_contains_eq_false
    rw [← Bool.not_eq_true, List.contains_iff_mem]
    intro hmem
    rw [Std.TreeMap.map_fst_toList_eq_keys, Std.TreeMap.mem_keys,
      Std.TreeMap.mem_iff_isSome_getElem?, hown] at hmem
    cases hmem
  · rw [Option.some_or]
    have hentry := Std.TreeMap.mem_toList_iff_getElem?_eq_some.mpr hown
    exact Std.TreeMap.getElem?_insertMany_list_of_mem Std.ReflCmp.compare_self
      Std.TreeMap.distinct_keys_toList hentry

end RustyImap.Config
