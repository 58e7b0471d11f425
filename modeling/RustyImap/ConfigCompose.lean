import RustyImap.ConfigValidate
import RustyImap.ReadLists

/-!
# Composing the configuration

`rimap-config/src/validate/compose.rs`: every account is merged onto the defaults,
checked, and put under its id.

The merge is field by field and reads nothing but the defaults and the account's own
block, so what an account ends up with depends on no other account.  The one rule that
does not do what it is for is the SMTP requirement: it asks about `send_email` alone,
and `forward` sends as well.
-/

namespace RustyImap.Config

open RustyImap.ProtectedFolders (NameLibs normalizeFolderName)

/-! ## Accounts -/

instance : Ord AccountId := ⟨compareOn AccountId.name⟩

instance : Std.TransOrd AccountId := inferInstanceAs (Std.TransCmp (compareOn AccountId.name))

instance : Std.LawfulEqOrd AccountId where
  eq_of_compare h := AccountId.ext (Std.LawfulEqOrd.eq_of_compare (α := String) h)

structure ValidatedAccountConfig where
  id : AccountId
  imap : ImapConfig
  smtp : Option SmtpConfig
  security : SecurityConfig
  limits : LimitsConfig
  toolOverrides : Overrides
  accountWrittenTools : Finset ToolName
  accountWrittenProtectedFolders : Bool
  accountWrittenExpungeFolders : Bool
  tlsFingerprint : Option TlsFingerprint
  fallbackMode : FallbackMode

/-- The matrix that boot builds for the account. -/
def ValidatedAccountConfig.matrix (account : ValidatedAccountConfig) : EffectiveMatrix :=
  .build account.security.posture account.toolOverrides

abbrev AccountTable := Std.TreeMap AccountId ValidatedAccountConfig

structure ValidatedMultiConfig where
  accounts : AccountTable
  audit : AuditConfig
  attachments : AttachmentsConfig

structure ValidateAccountInputs where
  id : AccountId
  imap : ImapConfig
  smtp : Option SmtpConfig
  security : SecurityConfig
  limits : LimitsConfig
  fallbackMode : FallbackMode
  accountWrittenToolKeys : List String
  accountWrittenProtectedFolders : Bool
  accountWrittenExpungeFolders : Bool

/-- `collect::<Result<BTreeSet<_>, _>>`. -/
def resolveWrittenTools (names : List String) : Except ConfigError (Finset ToolName) :=
  names.foldlM
    (fun out name => do
      let tool ← parseToolName name
      return insert tool out)
    ∅

def validateAccount (libs : NameLibs) (inputs : ValidateAccountInputs) :
    Except ConfigError ValidatedAccountConfig := do
  let tlsFingerprint ← parseFingerprint inputs.imap.tlsFingerprintSha256
  validateImapUsername inputs.imap.username
  inputs.smtp.elim (.ok ()) fun smtp => validateSmtpUsername smtp.username
  validateTimeouts inputs.imap inputs.smtp
  validateLimits inputs.limits
  validateToolCallCeiling inputs.imap inputs.smtp inputs.limits
  validateFolderSafety libs inputs.security
  let toolOverrides ← resolveToolOverrides inputs.security
  let accountWrittenTools ← resolveWrittenTools inputs.accountWrittenToolKeys
  validateSmtpRequired inputs.security toolOverrides inputs.smtp
  validateSmtpEncryption inputs.smtp
  return {
    id := inputs.id
    imap := inputs.imap
    smtp := inputs.smtp
    security := inputs.security
    limits := inputs.limits
    toolOverrides
    accountWrittenTools
    accountWrittenProtectedFolders := inputs.accountWrittenProtectedFolders
    accountWrittenExpungeFolders := inputs.accountWrittenExpungeFolders
    tlsFingerprint
    fallbackMode := inputs.fallbackMode }

/-! ## Merging and collecting -/

/-- What the loop of `validate_multi_inner` hands to `validate_account`: who wrote what
    is read off before the merge. -/
def mergedInputs (defaults : DefaultsConfig) (id : AccountId) (raw : RawAccountConfig) :
    ValidateAccountInputs where
  id := id
  imap := raw.imap
  smtp := raw.smtp
  security := raw.security.elim defaults.security fun own => own.mergeOnto defaults.security
  limits := raw.limits.elim defaults.limits fun own => own.mergeOnto defaults.limits
  fallbackMode :=
    (raw.credentials.elim defaults.credentials fun own =>
      own.mergeOnto defaults.credentials).fallback
  accountWrittenToolKeys :=
    ((raw.security.bind fun own => own.tools).map fun tools => tools.keys).getD []
  accountWrittenProtectedFolders :=
    raw.security.any fun own => own.protectedFolders.isSome
  accountWrittenExpungeFolders :=
    raw.security.any fun own => own.expungeFolders.isSome

/-- `AccountId::new` with `?`. -/
def parseAccountName (name : String) : Except ConfigError AccountId :=
  match AccountId.new name with
  | .ok id => .ok id
  | .error e => .error (.invalidAccountName e)

/-- One round of the loop. -/
def addAccount (libs : NameLibs) (defaults : DefaultsConfig) (accounts : AccountTable)
    (raw : RawAccountConfig) : Except ConfigError AccountTable := do
  let id ← parseAccountName raw.name
  if accounts.contains id then .error (.duplicateAccountName raw.name)
  else
    let validated ← validateAccount libs (mergedInputs defaults id raw)
    return accounts.insert id validated

def exportMessagesEnabled (accounts : AccountTable) : Bool :=
  accounts.values.any fun account => account.toolOverrides .exportMessages == some .allow

def finishValidatedMulti (fs : FileSystem) (accounts : AccountTable) (audit : AuditConfig)
    (attachments : AttachmentsConfig) : Except ConfigError ValidatedMultiConfig := do
  validateAuditConfig audit
  validatePathsMulti fs audit attachments
  validateExportDownloadRoot fs attachments (exportMessagesEnabled accounts)
  return ⟨accounts, audit, attachments⟩

def validateMultiInner (libs : NameLibs) (fs : FileSystem) (config : MultiAccountConfig) :
    Except ConfigError ValidatedMultiConfig := do
  let accounts ← config.accounts.foldlM (addAccount libs config.defaults) ∅
  finishValidatedMulti fs accounts config.audit config.attachments

def validateMulti (libs : NameLibs) (fs : FileSystem) (config : MultiAccountConfig) :
    Except ConfigError ValidatedMultiConfig :=
  if config.accounts.isEmpty then .error .noAccounts
  else validateMultiInner libs fs config

/-! ## What an account ends up with -/

/-- A block that is not there writes nothing. -/
def RawAccountConfig.ownSecurity (raw : RawAccountConfig) : AccountSecurityOverrides :=
  raw.security.getD {}

def RawAccountConfig.ownLimits (raw : RawAccountConfig) : AccountLimitsOverrides :=
  raw.limits.getD {}

def RawAccountConfig.ownLookalike (raw : RawAccountConfig) : AccountLookalikeOverrides :=
  raw.ownSecurity.lookalike.getD {}

def RawAccountConfig.ownVerdict (raw : RawAccountConfig) (name : String) : Option Verdict :=
  raw.ownSecurity.tools.bind fun tools => tools[name]?

/-- The account's own verdict on a tool, else the defaults'. -/
def verdictOf (defaults : DefaultsConfig) (raw : RawAccountConfig) (tool : ToolName) :
    Option Verdict :=
  (raw.ownVerdict tool.asStr).or defaults.security.tools[tool.asStr]?

def postureOf (defaults : DefaultsConfig) (raw : RawAccountConfig) : Posture :=
  raw.ownSecurity.posture.getD defaults.security.posture

structure LimitsComposed (own : AccountLimitsOverrides) (base limits : LimitsConfig) : Prop where
  maxSearchResults : limits.maxSearchResults = own.maxSearchResults.getD base.maxSearchResults
  maxSearchResultsCap :
    limits.maxSearchResultsCap = own.maxSearchResultsCap.getD base.maxSearchResultsCap
  maxFetchBodyBytes : limits.maxFetchBodyBytes = own.maxFetchBodyBytes.getD base.maxFetchBodyBytes
  maxAttachmentBytes :
    limits.maxAttachmentBytes = own.maxAttachmentBytes.getD base.maxAttachmentBytes
  maxAppendBytes : limits.maxAppendBytes = own.maxAppendBytes.getD base.maxAppendBytes
  commandsPerSecond : limits.commandsPerSecond = own.commandsPerSecond.getD base.commandsPerSecond
  draftsPerMinute : limits.draftsPerMinute = own.draftsPerMinute.getD base.draftsPerMinute
  sendsPerMinute : limits.sendsPerMinute = own.sendsPerMinute.getD base.sendsPerMinute
  circuitBreakerErrorThreshold : limits.circuitBreakerErrorThreshold =
    own.circuitBreakerErrorThreshold.getD base.circuitBreakerErrorThreshold
  circuitBreakerWindowSeconds : limits.circuitBreakerWindowSeconds =
    own.circuitBreakerWindowSeconds.getD base.circuitBreakerWindowSeconds
  toolCallTimeoutSeconds :
    limits.toolCallTimeoutSeconds = own.toolCallTimeoutSeconds.getD base.toolCallTimeoutSeconds

/-- Every field is the account's own where it wrote one and the defaults' elsewhere. -/
structure Composed (libs : NameLibs) (defaults : DefaultsConfig) (raw : RawAccountConfig)
    (account : ValidatedAccountConfig) : Prop where
  imap : account.imap = raw.imap
  smtp : account.smtp = raw.smtp
  posture : account.security.posture = postureOf defaults raw
  tools : ∀ name, account.security.tools[name]? =
    (raw.ownVerdict name).or defaults.security.tools[name]?
  protectedFolders : account.security.protectedFolders =
    raw.ownSecurity.protectedFolders.getD defaults.security.protectedFolders
  expungeFolders : account.security.expungeFolders =
    raw.ownSecurity.expungeFolders.getD defaults.security.expungeFolders
  lookalikeEnabled : account.security.lookalike.enabled =
    raw.ownLookalike.enabled.getD defaults.security.lookalike.enabled
  lookalikeKnownDomains : account.security.lookalike.knownDomains =
    raw.ownLookalike.knownDomains.getD defaults.security.lookalike.knownDomains
  lookalikeWarnOnAny : account.security.lookalike.warnOnAnyNonAsciiDomain =
    raw.ownLookalike.warnOnAnyNonAsciiDomain.getD
      defaults.security.lookalike.warnOnAnyNonAsciiDomain
  limits : LimitsComposed raw.ownLimits defaults.limits account.limits
  fallbackMode : account.fallbackMode =
    (raw.credentials.bind fun own => own.fallback).getD defaults.credentials.fallback
  toolOverrides : ∀ tool, account.toolOverrides tool = verdictOf defaults raw tool
  written_exact : ∀ tool,
    tool ∈ account.accountWrittenTools ↔ (raw.ownVerdict tool.asStr).isSome = true
  written_overrides : ∀ tool ∈ account.accountWrittenTools,
    (account.toolOverrides tool).isSome = true
  expunge_unprotected : ∀ folder ∈ account.security.expungeFolders,
    normalizeFolderName libs folder ≠ "inbox" ∧
      ∀ guarded ∈ account.security.protectedFolders,
        normalizeFolderName libs folder ≠ normalizeFolderName libs guarded

/-- Every account of the file is there, composed, and nothing else is; another file with
    the same defaults, or the same accounts in another order, gives an account the same
    values. -/
structure Faithful (libs : NameLibs) (fs : FileSystem) (config : MultiAccountConfig)
    (out : ValidatedMultiConfig) : Prop where
  composed : ∀ raw ∈ config.accounts, ∃ id account, AccountId.new raw.name = .ok id ∧
    out.accounts[id]? = some account ∧ account.id = id ∧
      Composed libs config.defaults raw account
  only : ∀ (id : AccountId) account, out.accounts[id]? = some account →
    ∃ raw ∈ config.accounts, AccountId.new raw.name = .ok id ∧
      Composed libs config.defaults raw account
  independent : ∀ fs' config' out', validateMulti libs fs' config' = .ok out' →
    config'.defaults = config.defaults → ∀ raw ∈ config.accounts, raw ∈ config'.accounts →
      ∀ id, AccountId.new raw.name = .ok id → out'.accounts[id]? = out.accounts[id]?
  unordered : ∀ accounts, config.accounts.Perm accounts →
    ∃ out', validateMulti libs fs { config with accounts := accounts } = .ok out' ∧
      ∀ id : AccountId, out'.accounts[id]? = out.accounts[id]?

/-- A tool that sends has a server to send through. -/
def SmtpBacked (out : ValidatedMultiConfig) : Prop :=
  ∀ (id : AccountId) account, out.accounts[id]? = some account →
    ∀ tool ∈ [ToolName.sendEmail, .forward], account.matrix.allows tool = true →
      account.smtp.isSome = true

/-- Without an SMTP block, `forward` is taken apart from `send_email`: it is allowed by
    name, or the posture allows both and `send_email` alone is denied. -/
def ForwardsAlone (defaults : DefaultsConfig) (raw : RawAccountConfig) : Prop :=
  raw.smtp = none ∧
    (verdictOf defaults raw .forward = some .allow ∨
      verdictOf defaults raw .forward = none ∧
        (postureOf defaults raw = .full ∨ postureOf defaults raw = .destructive) ∧
        verdictOf defaults raw .sendEmail = some .deny)

/-! ## The merge -/

theorem parseToolName_ok {name : String} {tool : ToolName} (h : parseToolName name = .ok tool) :
    tool.asStr = name := by
  unfold parseToolName at h
  rcases hparse : ToolName.fromStr name with _ | found
  · rw [hparse] at h
    cases h
  · rw [hparse] at h
    cases h
    exact ToolName.fromStr_eq_some.mp hparse

/-- Names are parsed one by one and two names never give one tool. -/
theorem foldlM_overrides {entries : List (String × Verdict)} {init out : Overrides}
    (h : entries.foldlM
      (fun out entry => do
        let tool ← parseToolName entry.1
        return Function.update out tool (some entry.2)) init = .ok out)
    (hkeys : entries.Pairwise fun a b => a.1 ≠ b.1) (tool : ToolName) :
    (∀ verdict, (tool.asStr, verdict) ∈ entries → out tool = some verdict) ∧
      ((∀ verdict, (tool.asStr, verdict) ∉ entries) → out tool = init tool) := by
  induction entries generalizing init with
  | nil =>
      cases h
      exact ⟨fun verdict hmem => absurd hmem List.not_mem_nil, fun _ => rfl⟩
  | cons entry rest ih =>
      rw [List.foldlM_cons] at h
      obtain ⟨middle, hstep, hrest⟩ := bind_eq_ok h
      obtain ⟨found, hparse, hmiddle⟩ := bind_eq_ok hstep
      cases hmiddle
      have hname := parseToolName_ok hparse
      rw [List.pairwise_cons] at hkeys
      obtain ⟨hin, hout⟩ := ih hrest hkeys.2
      constructor
      · intro verdict hmem
        rcases List.mem_cons.mp hmem with heq | hmem
        · subst heq
          have hfound : found = tool := ToolName.asStr_injective hname
          subst hfound
          rw [hout, Function.update_self]
          intro other hother
          exact hkeys.1 _ hother rfl
        · exact hin verdict hmem
      · intro hnone
        rw [hout fun verdict hmem => hnone verdict (List.mem_cons_of_mem _ hmem)]
        apply Function.update_of_ne
        intro heq
        apply hnone entry.2
        rw [heq, hname]
        exact List.mem_cons_self

theorem resolveToolOverrides_ok {security : SecurityConfig} {out : Overrides}
    (h : resolveToolOverrides security = .ok out) (tool : ToolName) :
    out tool = security.tools[tool.asStr]? := by
  have hkeys : security.tools.toList.Pairwise fun a b => a.1 ≠ b.1 :=
    Std.TreeMap.distinct_keys_toList.imp fun hne heq =>
      hne (by rw [heq]; exact Std.ReflCmp.compare_self)
  obtain ⟨hin, hout⟩ := foldlM_overrides h hkeys tool
  rcases hget : security.tools[tool.asStr]? with _ | verdict
  · apply hout
    intro verdict hmem
    rw [Std.TreeMap.mem_toList_iff_getElem?_eq_some, hget] at hmem
    cases hmem
  · exact hin verdict (Std.TreeMap.mem_toList_iff_getElem?_eq_some.mpr hget)

theorem resolveWrittenTools_ok {names : List String} {init out : Finset ToolName}
    (h : names.foldlM
      (fun out name => do
        let tool ← parseToolName name
        return insert tool out) init = .ok out) (tool : ToolName) :
    tool ∈ out ↔ tool.asStr ∈ names ∨ tool ∈ init := by
  induction names generalizing init with
  | nil =>
      cases h
      simp
  | cons name rest ih =>
      rw [List.foldlM_cons] at h
      obtain ⟨middle, hstep, hrest⟩ := bind_eq_ok h
      obtain ⟨found, hparse, hmiddle⟩ := bind_eq_ok hstep
      cases hmiddle
      have hname : tool = found ↔ tool.asStr = name := by
        rw [← parseToolName_ok hparse]
        exact ToolName.asStr_injective.eq_iff.symm
      rw [ih hrest, Finset.mem_insert, hname, List.mem_cons]
      tauto

theorem validateFolderSafety_ok {libs : NameLibs} {security : SecurityConfig}
    (h : validateFolderSafety libs security = .ok ()) :
    ∀ folder ∈ security.expungeFolders, normalizeFolderName libs folder ≠ "inbox" ∧
      ∀ guarded ∈ security.protectedFolders,
        normalizeFolderName libs folder ≠ normalizeFolderName libs guarded := by
  intro folder hmem
  unfold validateFolderSafety at h
  rcases hfind : security.expungeFolders.find? fun folder =>
      (security.protectedFolders.map (normalizeFolderName libs) ++ ["inbox"]).contains
        (normalizeFolderName libs folder) with _ | conflicting
  · have hfree := List.find?_eq_none.mp hfind folder hmem
    rw [List.contains_iff_mem, List.mem_append, List.mem_map, not_or] at hfree
    refine ⟨fun heq => hfree.2 (List.mem_singleton.mpr heq), ?_⟩
    intro guarded hguarded heq
    exact hfree.1 ⟨guarded, hguarded, heq.symm⟩
  · simp only [hfind, reduceCtorEq] at h

theorem validateSmtpRequired_ok_iff {security : SecurityConfig} {overrides : Overrides}
    {smtp : Option SmtpConfig} :
    validateSmtpRequired security overrides smtp = .ok () ↔
      (EffectiveMatrix.effective security.posture overrides .sendEmail = true →
        smtp.isSome = true) := by
  unfold validateSmtpRequired EffectiveMatrix.effective
  rcases smtp with _ | smtp
  · rcases overrides .sendEmail with _ | _ | _ <;>
      rcases baseAllows security.posture .sendEmail with _ | _ <;> simp
  · simp

/-- What an accepted account has passed and what it is made of. -/
theorem validateAccount_ok {libs : NameLibs} {inputs : ValidateAccountInputs}
    {account : ValidatedAccountConfig} (h : validateAccount libs inputs = .ok account) :
    validateFolderSafety libs inputs.security = .ok () ∧
      resolveToolOverrides inputs.security = .ok account.toolOverrides ∧
      resolveWrittenTools inputs.accountWrittenToolKeys = .ok account.accountWrittenTools ∧
      validateSmtpRequired inputs.security account.toolOverrides inputs.smtp = .ok () ∧
      account.id = inputs.id ∧ account.imap = inputs.imap ∧ account.smtp = inputs.smtp ∧
      account.security = inputs.security ∧ account.limits = inputs.limits ∧
      account.fallbackMode = inputs.fallbackMode := by
  obtain ⟨_, -, h⟩ := bind_eq_ok h
  iterate 5 obtain ⟨_, -, h⟩ := bind_eq_ok h
  obtain ⟨_, hsafe, h⟩ := bind_eq_ok h
  obtain ⟨overrides, hoverrides, h⟩ := bind_eq_ok h
  obtain ⟨written, hwritten, h⟩ := bind_eq_ok h
  obtain ⟨_, hsmtp, h⟩ := bind_eq_ok h
  obtain ⟨_, -, h⟩ := bind_eq_ok h
  cases h
  exact ⟨hsafe, hoverrides, hwritten, hsmtp, rfl, rfl, rfl, rfl, rfl, rfl⟩

theorem mergeOnto_getD (own : Option AccountSecurityOverrides) (base : SecurityConfig) :
    (own.elim base fun own => own.mergeOnto base) = (own.getD {}).mergeOnto base := by
  rcases own with _ | own <;> rfl

theorem limitsComposed_mergeOnto (own : Option AccountLimitsOverrides) (base : LimitsConfig) :
    LimitsComposed (own.getD {}) base (own.elim base fun own => own.mergeOnto base) := by
  rcases own with _ | own
  · constructor <;> rfl
  · constructor <;> rfl

/-- The extended table of a merged block. -/
theorem tools_mergeOnto (own : AccountSecurityOverrides) (base : SecurityConfig) (name : String) :
    (own.mergeOnto base).tools[name]? =
      (own.tools.bind fun tools => tools[name]?).or base.tools[name]? := by
  unfold AccountSecurityOverrides.mergeOnto
  rcases own.tools with _ | tools
  · rfl
  · exact getElem?_insertMany base.tools tools name

theorem composed_of_validated {libs : NameLibs} {defaults : DefaultsConfig} {id : AccountId}
    {raw : RawAccountConfig} {account : ValidatedAccountConfig}
    (h : validateAccount libs (mergedInputs defaults id raw) = .ok account) :
    Composed libs defaults raw account := by
  obtain ⟨hsafe, hoverrides, hwritten, -, -, himap, hsmtp, hsecurity, hlimits, hfallback⟩ :=
    validateAccount_ok h
  have hmerged : account.security = raw.ownSecurity.mergeOnto defaults.security :=
    hsecurity.trans (mergeOnto_getD raw.security defaults.security)
  have htools : ∀ name, account.security.tools[name]? =
      (raw.ownVerdict name).or defaults.security.tools[name]? := by
    intro name
    rw [hmerged]
    exact tools_mergeOnto raw.ownSecurity defaults.security name
  have hresolved : ∀ tool, account.toolOverrides tool = verdictOf defaults raw tool := by
    intro tool
    rw [resolveToolOverrides_ok hoverrides tool, ← hsecurity, htools]
    rfl
  have hexact : ∀ tool, tool ∈ account.accountWrittenTools ↔
      (raw.ownVerdict tool.asStr).isSome = true := by
    intro tool
    rw [resolveWrittenTools_ok hwritten tool]
    unfold mergedInputs RawAccountConfig.ownVerdict RawAccountConfig.ownSecurity
    rcases raw.security with _ | ⟨_, _ | tools, _, _, _⟩
    · simp
    · simp
    · simp
  constructor
  · exact himap
  · exact hsmtp
  · rw [hmerged]
    rfl
  · exact htools
  · rw [hmerged]
    rfl
  · rw [hmerged]
    rfl
  · rw [hmerged]
    unfold RawAccountConfig.ownLookalike AccountSecurityOverrides.mergeOnto
    rcases raw.ownSecurity.lookalike with _ | own <;> rfl
  · rw [hmerged]
    unfold RawAccountConfig.ownLookalike AccountSecurityOverrides.mergeOnto
    rcases raw.ownSecurity.lookalike with _ | own <;> rfl
  · rw [hmerged]
    unfold RawAccountConfig.ownLookalike AccountSecurityOverrides.mergeOnto
    rcases raw.ownSecurity.lookalike with _ | own <;> rfl
  · rw [hlimits]
    exact limitsComposed_mergeOnto raw.limits defaults.limits
  · rw [hfallback]
    unfold mergedInputs
    rcases raw.credentials with _ | own <;> rfl
  · exact hresolved
  · exact hexact
  · intro tool hmem
    have hown := (hexact tool).mp hmem
    rw [hresolved, verdictOf, Option.isSome_or, hown, Bool.true_or]
  · rw [hsecurity]
    exact validateFolderSafety_ok hsafe

/-! ## The loop -/

/-- What one block of `[[accounts]]` contributes. -/
def Contributes (libs : NameLibs) (defaults : DefaultsConfig) (raw : RawAccountConfig)
    (entry : AccountId × ValidatedAccountConfig) : Prop :=
  AccountId.new raw.name = .ok entry.1 ∧
    validateAccount libs (mergedInputs defaults entry.1 raw) = .ok entry.2

theorem addAccount_ok_iff {libs : NameLibs} {defaults : DefaultsConfig}
    {accounts out : AccountTable} {raw : RawAccountConfig} :
    addAccount libs defaults accounts raw = .ok out ↔
      ∃ entry, Contributes libs defaults raw entry ∧ accounts.contains entry.1 = false ∧
        out = accounts.insert entry.1 entry.2 := by
  constructor
  · intro h
    obtain ⟨id, hid, h⟩ := bind_eq_ok h
    have hparsed : AccountId.new raw.name = .ok id := by
      unfold parseAccountName at hid
      split at hid <;> cases hid
      assumption
    split at h
    · cases h
    · rename_i hfresh
      obtain ⟨validated, hvalid, h⟩ := bind_eq_ok h
      cases h
      exact ⟨(id, validated), ⟨hparsed, hvalid⟩, Bool.eq_false_iff.mpr hfresh, rfl⟩
  · rintro ⟨⟨id, validated⟩, ⟨hparsed, hvalid⟩, hfresh, rfl⟩
    dsimp only at hparsed hvalid hfresh ⊢
    have hid : parseAccountName raw.name = .ok id := by
      simp only [parseAccountName, hparsed]
    unfold addAccount
    rw [hid]
    change (if accounts.contains id = true then _ else _) = _
    rw [hfresh, if_neg Bool.false_ne_true, hvalid]
    rfl

/-- The loop accepts when every block contributes an entry and no two have one id. -/
theorem foldlM_addAccount_ok_iff {libs : NameLibs} {defaults : DefaultsConfig}
    {raws : List RawAccountConfig} {accounts out : AccountTable} :
    raws.foldlM (addAccount libs defaults) accounts = .ok out ↔
      ∃ entries, List.Forall₂ (Contributes libs defaults) raws entries ∧
        entries.Pairwise (fun a b => a.1 ≠ b.1) ∧
        (∀ entry ∈ entries, accounts.contains entry.1 = false) ∧
        out = accounts.insertMany entries := by
  induction raws generalizing accounts with
  | nil =>
      constructor
      · intro h
        cases h
        exact ⟨[], .nil, .nil, fun _ hmem => absurd hmem List.not_mem_nil,
          Std.TreeMap.insertMany_nil.symm⟩
      · rintro ⟨entries, hentries, -, -, rfl⟩
        cases hentries
        rw [Std.TreeMap.insertMany_nil]
        rfl
  | cons raw raws ih =>
      rw [List.foldlM_cons]
      constructor
      · intro h
        obtain ⟨middle, hstep, hrest⟩ := bind_eq_ok h
        obtain ⟨entry, hentry, hfresh, rfl⟩ := addAccount_ok_iff.mp hstep
        obtain ⟨entries, hentries, hdistinct, hnew, rfl⟩ := ih.mp hrest
        refine ⟨entry :: entries, .cons hentry hentries, ?_, ?_, ?_⟩
        · rw [List.pairwise_cons]
          refine ⟨fun other hmem heq => ?_, hdistinct⟩
          have hcontains := hnew other hmem
          rw [← heq, Std.TreeMap.contains_insert_self] at hcontains
          cases hcontains
        · intro other hmem
          rcases List.mem_cons.mp hmem with rfl | hmem
          · exact hfresh
          · have hcontains := hnew other hmem
            rw [Std.TreeMap.contains_insert, Bool.or_eq_false_iff] at hcontains
            exact hcontains.2
        · rw [Std.TreeMap.insertMany_cons]
      · rintro ⟨entries, hentries, hdistinct, hnew, rfl⟩
        rcases hentries with _ | ⟨hentry, hentries⟩
        rename_i entry entries
        rw [List.pairwise_cons] at hdistinct
        have hstep : addAccount libs defaults accounts raw =
            .ok (accounts.insert entry.1 entry.2) :=
          addAccount_ok_iff.mpr ⟨entry, hentry, hnew entry List.mem_cons_self, rfl⟩
        rw [hstep]
        apply ih.mpr
        refine ⟨entries, hentries, hdistinct.2, ?_, Std.TreeMap.insertMany_cons⟩
        intro other hmem
        rw [Std.TreeMap.contains_insert, Bool.or_eq_false_iff]
        refine ⟨?_, hnew other (List.mem_cons_of_mem _ hmem)⟩
        have hne := hdistinct.1 other hmem
        simpa using hne

theorem getElem?_entries {entries : List (AccountId × ValidatedAccountConfig)}
    (h : entries.Pairwise fun a b => a.1 ≠ b.1) {id : AccountId}
    {account : ValidatedAccountConfig} :
    ((∅ : AccountTable).insertMany entries)[id]? = some account ↔ (id, account) ∈ entries := by
  have hkeys : entries.Pairwise fun a b => ¬ compare a.1 b.1 = .eq :=
    h.imp fun hne heq => hne (Std.LawfulEqOrd.eq_of_compare heq)
  have hfound : ∀ found, (id, found) ∈ entries →
      ((∅ : AccountTable).insertMany entries)[id]? = some found := fun found hmem =>
    Std.TreeMap.getElem?_insertMany_list_of_mem Std.ReflCmp.compare_self hkeys hmem
  constructor
  · intro hget
    by_cases hmem : ∃ found, (id, found) ∈ entries
    · obtain ⟨found, hmem⟩ := hmem
      rw [hfound found hmem] at hget
      cases hget
      exact hmem
    · have hnone : (entries.map Prod.fst).contains id = false := by
        rw [← Bool.not_eq_true, List.contains_iff_mem, List.mem_map]
        rintro ⟨⟨other, found⟩, hentry, rfl⟩
        exact hmem ⟨found, hentry⟩
      rw [Std.TreeMap.getElem?_insertMany_list_of_contains_eq_false hnone,
        Std.TreeMap.getElem?_emptyc] at hget
      cases hget
  · exact hfound account

/-- The global checks read one thing of the accounts. -/
theorem finishValidatedMulti_ok {fs : FileSystem} {accounts : AccountTable} {audit : AuditConfig}
    {attachments : AttachmentsConfig} {out : ValidatedMultiConfig}
    (h : finishValidatedMulti fs accounts audit attachments = .ok out) :
    out = ⟨accounts, audit, attachments⟩ ∧
      ∀ accounts' : AccountTable,
        exportMessagesEnabled accounts' = exportMessagesEnabled accounts →
          finishValidatedMulti fs accounts' audit attachments =
            .ok ⟨accounts', audit, attachments⟩ := by
  unfold finishValidatedMulti at h ⊢
  obtain ⟨_, haudit, h⟩ := bind_eq_ok h
  obtain ⟨_, hpaths, h⟩ := bind_eq_ok h
  obtain ⟨_, hexport, h⟩ := bind_eq_ok h
  cases h
  refine ⟨rfl, ?_⟩
  intro accounts' heq
  rw [haudit, hpaths, heq, hexport]
  rfl

theorem exportMessagesEnabled_congr {accounts accounts' : AccountTable}
    (h : ∀ id : AccountId, accounts'[id]? = accounts[id]?) :
    exportMessagesEnabled accounts' = exportMessagesEnabled accounts := by
  have hequiv : accounts'.Equiv accounts := Std.TreeMap.Equiv.of_forall_constGet?_eq h
  unfold exportMessagesEnabled
  rw [hequiv.values_eq]

/-- An accepted file, with the entry that each of its blocks contributed. -/
theorem validateMulti_ok {libs : NameLibs} {fs : FileSystem} {config : MultiAccountConfig}
    {out : ValidatedMultiConfig} (h : validateMulti libs fs config = .ok out) :
    config.accounts ≠ [] ∧
      ∃ entries, List.Forall₂ (Contributes libs config.defaults) config.accounts entries ∧
        entries.Pairwise (fun a b => a.1 ≠ b.1) ∧
        out.accounts = (∅ : AccountTable).insertMany entries ∧
        finishValidatedMulti fs out.accounts config.audit config.attachments = .ok out := by
  unfold validateMulti at h
  split at h
  · cases h
  · rename_i hempty
    obtain ⟨accounts, hloop, hfinish⟩ := bind_eq_ok h
    obtain ⟨entries, hentries, hdistinct, -, rfl⟩ := foldlM_addAccount_ok_iff.mp hloop
    obtain ⟨rfl, -⟩ := finishValidatedMulti_ok hfinish
    refine ⟨?_, entries, hentries, hdistinct, rfl, hfinish⟩
    intro hnil
    rw [hnil] at hempty
    exact hempty rfl

theorem Contributes.unique {libs : NameLibs} {defaults : DefaultsConfig} {raw : RawAccountConfig}
    {entry entry' : AccountId × ValidatedAccountConfig} (h : Contributes libs defaults raw entry)
    (h' : Contributes libs defaults raw entry') : entry = entry' := by
  obtain ⟨id, account⟩ := entry
  obtain ⟨id', account'⟩ := entry'
  obtain ⟨hid, haccount⟩ := h
  obtain ⟨hid', haccount'⟩ := h'
  dsimp only at hid hid' haccount haccount'
  rw [hid] at hid'
  cases hid'
  rw [haccount] at haccount'
  cases haccount'
  rfl

theorem validateMulti_lookup {libs : NameLibs} {fs : FileSystem} {config : MultiAccountConfig}
    {out : ValidatedMultiConfig} (h : validateMulti libs fs config = .ok out) {id : AccountId}
    {account : ValidatedAccountConfig} :
    out.accounts[id]? = some account ↔
      ∃ raw ∈ config.accounts, Contributes libs config.defaults raw (id, account) := by
  obtain ⟨-, entries, hentries, hdistinct, haccounts, -⟩ := validateMulti_ok h
  rw [haccounts, getElem?_entries hdistinct]
  constructor
  · intro hmem
    exact ReadLists.exists_of_mem_right hentries hmem
  · rintro ⟨raw, hraw, hcontributes⟩
    obtain ⟨entry, hmem, hentry⟩ := ReadLists.exists_of_mem_right hentries.flip hraw
    rw [hcontributes.unique hentry]
    exact hmem

/-- Every block of an accepted file contributes its entry. -/
theorem exists_contributes {libs : NameLibs} {fs : FileSystem} {config : MultiAccountConfig}
    {out : ValidatedMultiConfig} (h : validateMulti libs fs config = .ok out)
    {raw : RawAccountConfig} (hraw : raw ∈ config.accounts) :
    ∃ entry, Contributes libs config.defaults raw entry := by
  obtain ⟨-, entries, hentries, -⟩ := validateMulti_ok h
  obtain ⟨entry, -, hentry⟩ := ReadLists.exists_of_mem_right hentries.flip hraw
  exact ⟨entry, hentry⟩

theorem validateMulti_perm {libs : NameLibs} {fs : FileSystem} {config : MultiAccountConfig}
    {out : ValidatedMultiConfig} (h : validateMulti libs fs config = .ok out)
    {accounts : List RawAccountConfig} (hperm : config.accounts.Perm accounts) :
    ∃ out', validateMulti libs fs { config with accounts := accounts } = .ok out' ∧
      ∀ id : AccountId, out'.accounts[id]? = out.accounts[id]? := by
  obtain ⟨hnonempty, entries, hentries, hdistinct, haccounts, hfinish⟩ := validateMulti_ok h
  obtain ⟨entries', hentries', hshuffled⟩ := List.perm_comp_forall₂ hperm.symm hentries
  have hdistinct' : entries'.Pairwise fun a b => a.1 ≠ b.1 :=
    hshuffled.symm.pairwise hdistinct fun hne => hne.symm
  have hsame : ∀ id : AccountId,
      ((∅ : AccountTable).insertMany entries')[id]? = out.accounts[id]? := by
    intro id
    apply Option.ext
    intro account
    rw [haccounts, getElem?_entries hdistinct', getElem?_entries hdistinct]
    exact hshuffled.mem_iff
  have hloop : accounts.foldlM (addAccount libs config.defaults) ∅ =
      .ok ((∅ : AccountTable).insertMany entries') :=
    foldlM_addAccount_ok_iff.mpr
      ⟨entries', hentries', hdistinct', fun _ _ => Std.TreeMap.contains_emptyc, rfl⟩
  refine ⟨⟨_, config.audit, config.attachments⟩, ?_, hsame⟩
  have hempty : accounts.isEmpty = false := by
    rw [List.isEmpty_eq_false_iff]
    intro hnil
    rw [hnil] at hperm
    exact hnonempty hperm.eq_nil
  unfold validateMulti validateMultiInner
  dsimp only
  rw [hempty, if_neg Bool.false_ne_true, hloop]
  exact (finishValidatedMulti_ok hfinish).2 _ (exportMessagesEnabled_congr hsame)

/-- **The composition is faithful, whatever the file.** -/
theorem faithful_of_validated {libs : NameLibs} {fs : FileSystem} {config : MultiAccountConfig}
    {out : ValidatedMultiConfig} (h : validateMulti libs fs config = .ok out) :
    Faithful libs fs config out := by
  constructor
  · intro raw hraw
    obtain ⟨⟨id, account⟩, hentry⟩ := exists_contributes h hraw
    have hlookup := (validateMulti_lookup h).mpr ⟨raw, hraw, hentry⟩
    obtain ⟨-, -, -, -, hid, -⟩ := validateAccount_ok hentry.2
    exact ⟨id, account, hentry.1, hlookup, hid, composed_of_validated hentry.2⟩
  · intro id account hlookup
    obtain ⟨raw, hraw, hentry⟩ := (validateMulti_lookup h).mp hlookup
    exact ⟨raw, hraw, hentry.1, composed_of_validated hentry.2⟩
  · intro fs' config' out' h' hdefaults raw hraw hraw' id hid
    obtain ⟨⟨other, account⟩, hentry⟩ := exists_contributes h hraw
    have hother : other = id := by
      have hparsed := hentry.1
      rw [hid] at hparsed
      cases hparsed
      rfl
    subst hother
    rw [(validateMulti_lookup h).mpr ⟨raw, hraw, hentry⟩]
    rw [← hdefaults] at hentry
    exact (validateMulti_lookup h').mpr ⟨raw, hraw', hentry⟩
  · intro accounts hperm
    exact validateMulti_perm h hperm

/-! ## The SMTP requirement -/

/-- Once `send_email` is known to be backed, `forward` is unless it stands alone. -/
theorem forward_backed_iff {defaults : DefaultsConfig} {raw : RawAccountConfig}
    {overrides : Overrides} (hoverrides : ∀ tool, overrides tool = verdictOf defaults raw tool)
    (hsend : EffectiveMatrix.effective (postureOf defaults raw) overrides .sendEmail = true →
      raw.smtp.isSome = true) :
    (EffectiveMatrix.effective (postureOf defaults raw) overrides .forward = true →
      raw.smtp.isSome = true) ↔ ¬ ForwardsAlone defaults raw := by
  unfold ForwardsAlone
  unfold EffectiveMatrix.effective at hsend ⊢
  rw [hoverrides] at hsend ⊢
  generalize verdictOf defaults raw .forward = forward at hsend ⊢
  generalize verdictOf defaults raw .sendEmail = send at hsend ⊢
  generalize postureOf defaults raw = posture at hsend ⊢
  generalize raw.smtp = smtp at hsend ⊢
  rcases smtp with _ | smtp
  · revert hsend
    simp only [Option.isSome_none, Bool.false_eq_true, imp_false, true_and]
    rcases forward with _ | _ | _ <;> rcases send with _ | _ | _ <;> cases posture <;> decide
  · simp

/-- The tools that send are backed, for the account of one block. -/
theorem backed_iff {libs : NameLibs} {defaults : DefaultsConfig} {raw : RawAccountConfig}
    {entry : AccountId × ValidatedAccountConfig} (h : Contributes libs defaults raw entry) :
    (∀ tool ∈ [ToolName.sendEmail, .forward], entry.2.matrix.allows tool = true →
      entry.2.smtp.isSome = true) ↔ ¬ ForwardsAlone defaults raw := by
  obtain ⟨-, -, -, hsmtp, -, -, -, hsecurity, -, -⟩ := validateAccount_ok h.2
  have hcomposed := composed_of_validated h.2
  have hsend := validateSmtpRequired_ok_iff.mp hsmtp
  rw [← hsecurity, hcomposed.posture] at hsend
  have hforward := forward_backed_iff hcomposed.toolOverrides hsend
  simp only [ValidatedAccountConfig.matrix, EffectiveMatrix.allows_build, hcomposed.posture,
    hcomposed.smtp, List.mem_cons, List.not_mem_nil, or_false, forall_eq_or_imp, forall_eq]
  constructor
  · intro hall
    exact hforward.mp hall.2
  · intro halone
    exact ⟨hsend, hforward.mpr halone⟩

theorem smtpBacked_iff {libs : NameLibs} {fs : FileSystem} {config : MultiAccountConfig}
    {out : ValidatedMultiConfig} (h : validateMulti libs fs config = .ok out) :
    SmtpBacked out ↔ ∀ raw ∈ config.accounts, ¬ ForwardsAlone config.defaults raw := by
  constructor
  · intro hsmtp raw hraw
    obtain ⟨⟨id, account⟩, hentry⟩ := exists_contributes h hraw
    have hlookup := (validateMulti_lookup h).mpr ⟨raw, hraw, hentry⟩
    exact (backed_iff hentry).mp (hsmtp id account hlookup)
  · intro hall id account hlookup
    obtain ⟨raw, hraw, hentry⟩ := (validateMulti_lookup h).mp hlookup
    exact (backed_iff hentry).mpr (hall raw hraw)

/-- **An accepted configuration is sound exactly when no account without an SMTP block
    takes `forward` apart from `send_email`.** -/
theorem composition_sound_iff {libs : NameLibs} {fs : FileSystem} {config : MultiAccountConfig}
    {out : ValidatedMultiConfig} (h : validateMulti libs fs config = .ok out) :
    (Faithful libs fs config out ∧ SmtpBacked out) ↔
      ∀ raw ∈ config.accounts, ¬ ForwardsAlone config.defaults raw := by
  rw [← smtpBacked_iff h]
  constructor
  · intro hsound
    exact hsound.2
  · intro hsmtp
    exact ⟨faithful_of_validated h, hsmtp⟩

/-- A file system of directories that only the server may write. -/
def privateFs : FileSystem where
  present _ := true
  metadata _ := .ok ⟨true, false, 0o700⟩
  symlinkMetadata _ := .ok ⟨true, false, 0o700⟩
  canonicalize path := .ok path
  dataLocalDir := some (.new "/state")

/-- Draft-safe with `forward` allowed by name, and no SMTP block. -/
def forwardOnly : RawAccountConfig where
  name := "work"
  imap := { host := "imap.example.com", port := 993, username := "alice" }
  security := some { tools := some (.ofList [("forward", Verdict.allow)]) }

/-- Reading mail is all that the account does. -/
def readOnlyAccount : RawAccountConfig where
  name := "home"
  imap := { host := "imap.example.com", port := 993, username := "bob" }
  security := some { posture := some .readonly }

def oneAccount (raw : RawAccountConfig) : MultiAccountConfig where
  accounts := [raw]
  audit := { path := .new "/state/audit.jsonl" }

theorem accepted_forwardOnly :
    (validateMulti ProtectedFolders.plainLibs privateFs (oneAccount forwardOnly)).isOk = true := by
  decide +kernel

theorem composition_sound_readOnlyAccount :
    ∃ out, validateMulti ProtectedFolders.plainLibs privateFs (oneAccount readOnlyAccount) =
        .ok out ∧
      ((Faithful ProtectedFolders.plainLibs privateFs (oneAccount readOnlyAccount) out ∧
          SmtpBacked out) ↔
        ∀ raw ∈ (oneAccount readOnlyAccount).accounts,
          ¬ ForwardsAlone (oneAccount readOnlyAccount).defaults raw) := by
  have haccepted : (validateMulti ProtectedFolders.plainLibs privateFs
      (oneAccount readOnlyAccount)).isOk = true := by
    decide +kernel
  rcases hrun : validateMulti ProtectedFolders.plainLibs privateFs (oneAccount readOnlyAccount)
    with e | out
  · rw [hrun] at haccepted
    cases haccepted
  · exact ⟨out, rfl, composition_sound_iff hrun⟩

theorem forwardOnly_unsound :
    ¬ ∀ (libs : NameLibs) (fs : FileSystem) (config : MultiAccountConfig)
      (out : ValidatedMultiConfig), validateMulti libs fs config = .ok out →
        Faithful libs fs config out ∧ SmtpBacked out := by
  intro hall
  have haccepted := accepted_forwardOnly
  rcases hrun : validateMulti ProtectedFolders.plainLibs privateFs (oneAccount forwardOnly)
    with e | out
  · rw [hrun] at haccepted
    cases haccepted
  · obtain ⟨-, hsmtp⟩ := hall _ _ _ _ hrun
    have halone : ForwardsAlone (oneAccount forwardOnly).defaults forwardOnly :=
      ⟨rfl, Or.inl (by decide +kernel)⟩
    exact (smtpBacked_iff hrun).mp hsmtp forwardOnly List.mem_cons_self halone

end RustyImap.Config
