import RustyImap.ConfigValidate
import RustyImap.ForwardMessage
import RustyImap.SessionDispatch
import RustyImap.TimedRuns

/-!
# How long sending takes

The handlers of `send_email` and `forward` (`tools/compose/`) down to the stages that
have a deadline: the wait for the session, the connect and the command of one
`attempt` (`rimap-imap/src/connection/dispatch.rs`, `handshake.rs`) and the dialog of
`send_raw` (`rimap-smtp/src/client.rs`), under the ceiling of
`with_tool_call_ceiling` (`rimap-server/src/mcp/dispatch.rs`).

What the awaits of one call would bring, and after how long, is a parameter; work
without a deadline of its own takes no time.  Times are in nanoseconds.
-/

namespace RustyImap.SendDeadline

open RustyImap.Config RustyImap.Compose RustyImap.ContentParse RustyImap.ImapOps
open RustyImap.SessionDispatch RustyImap.TimedRuns RustyImap.UnicodeFilter

/-- `Duration::from_secs`. -/
def seconds (n : UInt32) : Nat := n.toNat * 1000000000

/-! ## One IMAP operation -/

/-- `ImapError`, with the variants that only a connect ends with. -/
inductive SessionError where
  | command (error : ImapError)
  | connect (code : ErrorCode)   -- `Tls`, `TlsHandshake`, `Starttls`, `Connect`, `Auth`, `Audit`
deriving DecidableEq

def SessionError.code : SessionError → ErrorCode
  | .command .connectionLost => .connectionLost
  | .command (.timeout _) => .timeout
  | .command (.sizeLimit _) => .attachmentTooLarge
  | .command (.protocol _) | .command (.capabilitiesUnknown _) => .imapProtocol
  | .command (.folderNotFound _) => .notFound
  | .command (.invalidInput _ _) | .command (.batchTooLarge _ _) => .invalidInput
  | .command (.uidValidityChanged _ _ _) | .command (.uidValidityUnavailable _) =>
      .uidValidityChanged
  | .connect code => code

/-- What the steps of a connect would bring without a deadline. -/
structure Handshake where
  tcp : Timed SessionError Unit
  tls : Timed SessionError Unit        -- or the STARTTLS upgrade
  login : Timed SessionError Unit

/-- What the awaits of one attempt would bring; no handshake where a session is cached. -/
structure Awaits (α : Type) where
  lockWait : Nat
  handshake : Option Handshake
  body : Timed SessionError α

section Session

variable (imap : ImapConfig)

def elapsedIn (op : String) : SessionError := .command (.timeout op)

/-- Each step has what is left of `connect_timeout`. -/
def connectWithBundle (steps : Handshake) : Timed SessionError Unit :=
  let totalDeadline := seconds imap.connectTimeoutSeconds
  let tcp := steps.tcp.withTimeout (elapsedIn "tcp_connect") totalDeadline
  let op := match imap.encryption with | .tls => "tls_handshake" | .starttls => "starttls_upgrade"
  let tls := steps.tls.withTimeout (elapsedIn op) (totalDeadline - tcp.elapsed)
  do
    tcp
    tls
    steps.login.withTimeout (elapsedIn "imap_login") (totalDeadline - tcp.elapsed - tls.elapsed)

/-- The lazy connect. -/
def ensureSession : Option Handshake → Timed SessionError Unit
  | some steps => connectWithBundle imap steps
  | none => pure ()

variable {α : Type}

def attempt (opName : String) (awaits : Awaits α) : Timed SessionError α := do
  let dur := seconds imap.commandTimeoutSeconds
  Timed.withTimeout (elapsedIn opName) dur ⟨.ok (), awaits.lockWait⟩
  ensureSession imap awaits.handshake
  awaits.body.withTimeout (elapsedIn opName) dur

/-- A result as `should_reconnect` looks at it. -/
def commandResult : Except SessionError α → Except ImapError Unit
  | .error (.command e) => .error e
  | .error (.connect _) | .ok _ => .ok ()

def withSession (opName : String) (idempotency : Idempotency) (first second : Awaits α) :
    Timed SessionError α := do
  let result ← (attempt imap opName first).attempted
  if !shouldReconnect idempotency (commandResult result) then Timed.lift result
  else attempt imap opName second

end Session

/-! ## SMTP -/

inductive SmtpError where
  | connection
  | tls
  | rejected (reason : String)
  | auth (reason : String)
  | timeout
  | transport (detail : String)
deriving DecidableEq, Repr

def SmtpError.display : SmtpError → String
  | .connection => "SMTP connection failed"
  | .tls => "SMTP TLS handshake failed"
  | .rejected reason => "SMTP send rejected: " ++ reason
  | .auth reason => "SMTP authentication failed: " ++ reason
  | .timeout => "SMTP operation timed out"
  | .transport detail => "SMTP error: " ++ detail

def SmtpError.code : SmtpError → ErrorCode
  | .connection => .connectionLost
  | .tls => .tls
  | .rejected _ => .smtpProtocol
  | .auth _ => .auth
  | .timeout => .timeout
  | .transport _ => .internal

structure SendEnvelope where
  sender : String
  recipients : List String
deriving DecidableEq, Repr

def buildEnvelope (fromAddr : String) (recipients : List AddressInput)
    (cc bcc : Option (List AddressInput)) : SendEnvelope :=
  ⟨fromAddr, (recipients ++ cc.getD [] ++ bcc.getD []).map AddressInput.address⟩

/-! ## The handlers -/

/-- What sending is done with, beside the message builder. -/
structure SendLibs extends ComposeLibs where
  /-- `ImapError`'s text. -/
  display : SessionError → String
  /-- `build_lettre_envelope`. -/
  lettreEnvelope : SendEnvelope → Except SmtpError Unit

/-- What the two handlers read of `AccountState`. -/
structure Account where
  imap : ImapConfig
  smtp : Option SmtpConfig
  limits : LimitsConfig
  sentFolder : Option String         -- `special_use.sent()`

/-- What the awaits of one call would bring. -/
structure World where
  fetch : Awaits Bytes
  refetch : Awaits Bytes             -- the second attempt of the same fetch
  dialog : Timed SmtpError String
  append : Awaits (Option Nat)       -- with the UID the server gave

structure SentCopyInfo where
  folder : String
  uid : Option Nat
  failed : Bool
  failureCode : Option ErrorCode
deriving DecidableEq

structure SentMeta where
  messageId : Option String
  sentCopy : SentCopyInfo
  source : Option (String × NonZeroU32)       -- of a forward
  attachments : List AttachmentSummary        -- of a `send_email`
  securityWarnings : List SecurityWarning

/-- A call of one of the two tools. -/
inductive SendCall where
  | sendEmail (input : ComposeInput)
  | forward (input : ForwardInput)

section Handlers

variable (libs : SendLibs) (account : Account) (world : World)

def toRimapError : SessionError → RimapError
  | .command (.uidValidityChanged folder expected actual) =>
      .uidValidityChanged folder expected actual
  | .command (.sizeLimit limit) => .attachmentTooLarge "fetch_body_bytes" limit
  | e => .imap e.code (libs.display e)

def fetchBody : Timed RimapError Bytes :=
  (withSession account.imap "fetch_body" .readOnly world.fetch world.refetch).mapError
    (toRimapError libs)

def requireSmtp (tool : String) : Except RimapError SmtpConfig :=
  match account.smtp with
  | some smtp => .ok smtp
  | none => .error (.config (tool ++ " requires SMTP configuration"))

def sendRaw (smtp : SmtpConfig) (envelope : SendEnvelope) : Timed RimapError String :=
  let dialog : Timed SmtpError String := do
    libs.lettreEnvelope envelope
    world.dialog.withTimeout .timeout (seconds smtp.commandTimeoutSeconds)
  dialog.mapError fun e => .smtp e.code e.display

/-- Best effort: the mail is out, so a failure is a part of the answer. -/
def appendSentCopy : Timed RimapError SentCopyInfo := do
  let folder := account.sentFolder.getD "Sent"
  if !FolderName.isValid folder then return ⟨folder, none, true, some .invalidInput⟩
  else
    -- a mutating operation has no second attempt
    match ← (withSession account.imap "append" .mutating world.append world.append).attempted with
    | .ok uid => return ⟨folder, uid, false, none⟩
    | .error e => return ⟨folder, none, true, some e.code⟩

/-- `build_message`; the message that is replied to is fetched on the way. -/
def timedBuildMessage (input : ComposeInput) : Timed RimapError BuiltMessage :=
  let fetched := fetchBody libs account world
  let libs := { libs.toComposeLibs with fetchBody := fun _ _ => fetched.outcome }
  ⟨buildMessage libs account.imap.username input false,
    if input.inReplyToUid.isSome then fetched.elapsed else 0⟩

def sendEmail (input : ComposeInput) : Timed RimapError SentMeta := do
  validateComposeInput input
  let smtp ← requireSmtp account "send_email"
  let built ← timedBuildMessage libs account world input
  let _ ← sendRaw libs world smtp
    (buildEnvelope account.imap.username input.recipients input.cc input.bcc)
  let sentCopy ← appendSentCopy account world
  return { messageId := extractMessageId libs.toContentLibs built.raw
           sentCopy
           source := none
           attachments := built.attachments
           securityWarnings := built.securityWarnings }

def forward (input : ForwardInput) : Timed RimapError SentMeta := do
  let commentBody ← validateForwardInput input
  let smtp ← requireSmtp account "forward"
  let original ← fetchBody libs account world
  checkOriginalSize original
  let rawMsg ← buildForwardMessage libs.toComposeLibs account.imap.username input.recipients
    input.cc (forwardedSubject (extractSubject libs.toContentLibs original)) commentBody original
    (extractThreadingHeaders libs.toContentLibs original)
  let _ ← sendRaw libs world smtp
    (buildEnvelope account.imap.username input.recipients input.cc input.bcc)
  let sentCopy ← appendSentCopy account world
  return { messageId := extractMessageId libs.toContentLibs rawMsg
           sentCopy
           source := some (input.folder, input.uid)
           attachments := []
           securityWarnings := [] }

def SendCall.handle : SendCall → Timed RimapError SentMeta
  | .sendEmail input => SendDeadline.sendEmail libs account world input
  | .forward input => SendDeadline.forward libs account world input

/-- `with_tool_call_ceiling`. -/
def withToolCallCeiling {α : Type} (dispatch : Timed RimapError α) : Timed RimapError α :=
  dispatch.withTimeout
    (.imap .timeout ("tool call exceeded the " ++
      toString account.limits.toolCallTimeoutSeconds.toNat ++
      "s ceiling (limits.tool_call_timeout_seconds)"))
    (seconds account.limits.toolCallTimeoutSeconds)

end Handlers

/-! ## The time of each stage -/

/-- The deadlines of one attempt: two of a command and one of a connect. -/
def attemptBudget (imap : ImapConfig) : Nat :=
  2 * seconds imap.commandTimeoutSeconds + seconds imap.connectTimeoutSeconds

theorem within_connectWithBundle (imap : ImapConfig) (steps : Handshake) :
    Within (connectWithBundle imap steps) (seconds imap.connectTimeoutSeconds) := by
  unfold connectWithBundle
  apply within_bind_left (within_withTimeout _ _ _)
  intro _ _
  apply within_bind_left (within_withTimeout _ _ _)
  intro _ _
  exact within_withTimeout _ _ _

theorem within_ensureSession (imap : ImapConfig) (handshake : Option Handshake) :
    Within (ensureSession imap handshake) (seconds imap.connectTimeoutSeconds) := by
  rcases handshake with _ | steps
  · exact within_pure _ _
  · exact within_connectWithBundle imap steps

theorem within_attempt {α : Type} (imap : ImapConfig) (opName : String) (awaits : Awaits α) :
    Within (attempt imap opName awaits) (attemptBudget imap) := by
  have hlock := within_withTimeout (elapsedIn opName) (seconds imap.commandTimeoutSeconds)
    ⟨.ok (), awaits.lockWait⟩
  have hbody := within_withTimeout (elapsedIn opName) (seconds imap.commandTimeoutSeconds)
    awaits.body
  have hconnected : Within
      (do ensureSession imap awaits.handshake
          awaits.body.withTimeout (elapsedIn opName) (seconds imap.commandTimeoutSeconds))
      (seconds imap.connectTimeoutSeconds + seconds imap.commandTimeoutSeconds) :=
    within_bind _ (within_ensureSession imap awaits.handshake) (fun _ _ => hbody) (Nat.le_refl _)
  refine within_bind _ hlock (fun _ _ => hconnected) ?_
  unfold attemptBudget
  omega

/-- The first attempt ends with a lost connection. -/
def FirstAttemptLost (account : Account) (world : World) : Prop :=
  (attempt account.imap "fetch_body" world.fetch).outcome = .error (.command .connectionLost)

theorem shouldReconnect_commandResult {α : Type} {idempotency : Idempotency}
    {result : Except SessionError α}
    (h : shouldReconnect idempotency (commandResult result) = true) :
    idempotency = .readOnly ∧ result = .error (.command .connectionLost) := by
  unfold shouldReconnect at h
  obtain ⟨hread, hlost⟩ := (Bool.and_eq_true _ _).mp h
  refine ⟨beq_iff_eq.mp hread, ?_⟩
  rcases result with (e | _) | a
  · rcases e <;> first | rfl | exact absurd hlost Bool.false_ne_true
  · exact absurd hlost Bool.false_ne_true
  · exact absurd hlost Bool.false_ne_true

/-- Without a retry an operation is one attempt. -/
theorem within_withSession_once {α : Type} (imap : ImapConfig) (opName : String)
    (idempotency : Idempotency) (first second : Awaits α)
    (honce : idempotency = .readOnly →
      (attempt imap opName first).outcome ≠ .error (.command .connectionLost)) :
    Within (withSession imap opName idempotency first second) (attemptBudget imap) := by
  refine (within_attempt imap opName first).attempted.bind_free ?_
  intro result hresult
  rcases hretry : shouldReconnect idempotency (commandResult result) with _ | _
  · exact within_lift result 0
  · obtain ⟨hread, hlost⟩ := shouldReconnect_commandResult hretry
    have hout : (attempt imap opName first).outcome = result := Except.ok.inj hresult
    exact absurd (hout.trans hlost) (honce hread)

/-- In any case it is at most two. -/
theorem within_withSession {α : Type} (imap : ImapConfig) (opName : String)
    (idempotency : Idempotency) (first second : Awaits α) :
    Within (withSession imap opName idempotency first second) (2 * attemptBudget imap) := by
  refine within_bind (attemptBudget imap) (within_attempt imap opName first).attempted ?_
    (by omega)
  intro result _
  rcases shouldReconnect idempotency (commandResult result) with _ | _
  · exact within_lift result _
  · exact within_attempt imap opName second

theorem within_sendRaw (libs : SendLibs) (world : World) (smtp : SmtpConfig)
    (envelope : SendEnvelope) :
    Within (sendRaw libs world smtp envelope) (seconds smtp.commandTimeoutSeconds) := by
  apply Within.mapError
  refine within_lift_bind ?_
  intro _ _
  exact within_withTimeout _ _ _

theorem within_appendSentCopy (account : Account) (world : World) :
    Within (appendSentCopy account world) (attemptBudget account.imap) := by
  have honce := within_withSession_once account.imap "append" .mutating world.append
    world.append fun hread => absurd hread (by decide)
  dsimp only [appendSentCopy]
  split
  · exact within_pure _ _
  · refine honce.attempted.bind_free ?_
    intro result _
    rcases result with e | uid
    · exact within_pure _ _
    · exact within_pure _ _

/-! ## The time of a call -/

/-- The call reads a message before it sends one. -/
def SendCall.fetches : SendCall → Bool
  | .sendEmail input => input.inReplyToUid.isSome
  | .forward _ => true

theorem within_fetchBody (libs : SendLibs) (account : Account) (world : World) :
    Within (fetchBody libs account world) (2 * attemptBudget account.imap) :=
  (within_withSession account.imap "fetch_body" .readOnly world.fetch world.refetch).mapError _

theorem within_fetchBody_once (libs : SendLibs) {account : Account} {world : World}
    (h : ¬ FirstAttemptLost account world) :
    Within (fetchBody libs account world) (attemptBudget account.imap) :=
  (within_withSession_once account.imap "fetch_body" .readOnly world.fetch world.refetch
    fun _ => h).mapError _

/-- Delivery and the copy that follows it. -/
theorem within_deliver (libs : SendLibs) (account : Account) (world : World) (smtp : SmtpConfig)
    (envelope : SendEnvelope) (answer : SentCopyInfo → SentMeta) :
    Within
      (do let _ ← sendRaw libs world smtp envelope
          let sentCopy ← appendSentCopy account world
          return answer sentCopy)
      (seconds smtp.commandTimeoutSeconds + attemptBudget account.imap) := by
  refine within_bind _ (within_sendRaw libs world smtp envelope) ?_ (Nat.le_refl _)
  intro _ _
  refine (within_appendSentCopy account world).bind_free ?_
  intro sentCopy _
  exact within_pure _ _

/-- Without `[smtp]` a call ends before its first await. -/
theorem within_handle_of_no_smtp (libs : SendLibs) {account : Account} (world : World)
    (call : SendCall) (hsmtp : account.smtp = none) :
    Within (call.handle libs account world) 0 := by
  have hrequire : ∀ tool, requireSmtp account tool =
      .error (.config (tool ++ " requires SMTP configuration")) := by
    intro tool
    simp only [requireSmtp, hsmtp]
  rcases call with input | input
  · refine within_lift_bind ?_
    intro _ _
    refine within_lift_bind ?_
    intro smtp hok
    rw [hrequire] at hok
    cases hok
  · refine within_lift_bind ?_
    intro _ _
    refine within_lift_bind ?_
    intro smtp hok
    rw [hrequire] at hok
    cases hok

theorem requireSmtp_ok {account : Account} {smtp smtp' : SmtpConfig} {tool : String}
    (hsmtp : account.smtp = some smtp)
    (h : requireSmtp account tool = .ok smtp') : smtp' = smtp := by
  simp only [requireSmtp, hsmtp] at h
  exact (Except.ok.inj h).symm

/-- A call takes what its fetch takes, then one dialog and one attempt. -/
theorem within_handle (libs : SendLibs) {account : Account} {world : World} {smtp : SmtpConfig}
    (hsmtp : account.smtp = some smtp) (call : SendCall) {budget : Nat}
    (hfetch : call.fetches = true → Within (fetchBody libs account world) budget) :
    Within (call.handle libs account world)
      (budget + (seconds smtp.commandTimeoutSeconds + attemptBudget account.imap)) := by
  rcases call with input | input
  · refine within_lift_bind ?_
    intro _ _
    refine within_lift_bind ?_
    intro smtp' hok
    obtain rfl := requireSmtp_ok hsmtp hok
    have hbuild : Within (timedBuildMessage libs account world input) budget := by
      rcases huid : input.inReplyToUid with _ | uid
      · simp only [Within, timedBuildMessage, huid]
        exact Nat.zero_le budget
      · have helapsed := hfetch (by simp only [SendCall.fetches, huid, Option.isSome_some])
        simpa only [Within, timedBuildMessage, huid, Option.isSome_some, if_true] using helapsed
    refine within_bind _ hbuild ?_ (Nat.le_refl _)
    intro built _
    exact within_deliver libs account world _ _ _
  · refine within_lift_bind ?_
    intro _ _
    refine within_lift_bind ?_
    intro smtp' hok
    obtain rfl := requireSmtp_ok hsmtp hok
    refine within_bind _ (hfetch rfl) ?_ (Nat.le_refl _)
    intro original _
    refine within_lift_bind ?_
    intro _ _
    refine within_lift_bind ?_
    intro rawMsg _
    exact within_deliver libs account world _ _ _

/-! ## Under the ceiling -/

/-- The account's blocks pass the validators. -/
def Accepted (account : Account) : Prop :=
  validateTimeouts account.imap account.smtp = .ok () ∧
    validateLimits account.limits = .ok () ∧
    validateToolCallCeiling account.imap account.smtp account.limits = .ok ()

instance (account : Account) : Decidable (Accepted account) :=
  inferInstanceAs (Decidable (_ ∧ _ ∧ _))

/-- No sum of `u32` budgets saturates. -/
theorem imapOperationBoundedSeconds_eq (imap : ImapConfig) :
    imapOperationBoundedSeconds imap =
      2 * (2 * imap.commandTimeoutSeconds.toNat + imap.connectTimeoutSeconds.toNat) := by
  have hcommand := imap.commandTimeoutSeconds.toNat_lt
  have hconnect := imap.connectTimeoutSeconds.toNat_lt
  simp only [imapOperationBoundedSeconds, saturatingMul, saturatingAdd, U64_MAX]
  omega

/-- The ceiling has room for two attempts and a dialog. -/
theorem minimum_le_ceiling {account : Account} {smtp : SmtpConfig} (h : Accepted account)
    (hsmtp : account.smtp = some smtp) :
    2 * attemptBudget account.imap + seconds smtp.commandTimeoutSeconds ≤
      seconds account.limits.toolCallTimeoutSeconds := by
  have hceiling := h.2.2
  simp only [validateToolCallCeiling] at hceiling
  split at hceiling
  · rename_i hminimum
    rw [hsmtp, Option.elim_some, imapOperationBoundedSeconds_eq, saturatingAdd, U64_MAX] at hminimum
    have hlimit := account.limits.toolCallTimeoutSeconds.toNat_lt
    have hplain :
        2 * (2 * account.imap.commandTimeoutSeconds.toNat +
          account.imap.connectTimeoutSeconds.toNat) + smtp.commandTimeoutSeconds.toNat ≤
            account.limits.toolCallTimeoutSeconds.toNat := by
      omega
    simp only [attemptBudget, seconds]
    omega
  · cases hceiling

/-- The ceiling that the manual gives for sending: a third attempt fits. -/
def SizedForRetry (account : Account) : Prop :=
  3 * (2 * account.imap.commandTimeoutSeconds.toNat + account.imap.connectTimeoutSeconds.toNat) +
    account.smtp.elim 0 (fun smtp => smtp.commandTimeoutSeconds.toNat) ≤
      account.limits.toolCallTimeoutSeconds.toNat

/-- **A sent mail is not reported as timed out.**  Under an accepted configuration a
    call that fetches nothing before it sends, or whose fetch does not lose its
    connection, ends before the ceiling whatever its stages take; where the fetch is
    retried it does so under a ceiling with room for a third attempt. -/
theorem handle_within_ceiling (libs : SendLibs) (account : Account) (world : World)
    (call : SendCall) (haccepted : Accepted account)
    (hfetch : call.fetches = false ∨ ¬ FirstAttemptLost account world ∨ SizedForRetry account) :
    (call.handle libs account world).elapsed ≤ seconds account.limits.toolCallTimeoutSeconds ∧
      withToolCallCeiling account (call.handle libs account world) =
        call.handle libs account world := by
  have hwithin : Within (call.handle libs account world)
      (seconds account.limits.toolCallTimeoutSeconds) := by
    rcases hsmtp : account.smtp with _ | smtp
    · exact (within_handle_of_no_smtp libs world call hsmtp).mono (Nat.zero_le _)
    · have hroom := minimum_le_ceiling haccepted hsmtp
      rcases hfetch with hnone | honce | hsized
      · have hnever : call.fetches = true → Within (fetchBody libs account world) 0 := by
          intro h
          rw [hnone] at h
          cases h
        exact (within_handle libs hsmtp call hnever).mono (by omega)
      · have hcall := within_handle libs hsmtp call fun _ => within_fetchBody_once libs honce
        exact hcall.mono (by omega)
      · have hcall := within_handle libs hsmtp call fun _ => within_fetchBody libs account world
        rw [SizedForRetry, hsmtp, Option.elim_some] at hsized
        refine hcall.mono ?_
        simp only [attemptBudget, seconds]
        omega
  exact ⟨hwithin, withTimeout_of_within hwithin⟩

/-! ## A forward under the default budgets -/

/-- A mailbox that holds one message without headers. -/
def plainSendLibs : SendLibs :=
  { htmlOnlyLibs {} [] "" with
    generateMessageId := fun fromAddr => "1." ++ fromAddr
    fetchBody := fun _ _ => .ok []
    readSandboxedFile := fun _ _ => .ok []
    sniffMime := fun _ => none
    writeToVec := fun builder => .ok (utf8Bytes builder.textBody)
    display := fun _ => "IMAP error"
    lettreEnvelope := fun _ => .ok () }

/-- The default budgets, under the smallest ceiling that is accepted with them. -/
def defaultAccount (ceiling : UInt32) : Account where
  imap := { host := "imap.example.com", port := 993, username := "me@example.com" }
  smtp := some { host := "smtp.example.com", port := 465, encryption := .tls,
                 username := "me@example.com" }
  limits := { toolCallTimeoutSeconds := ceiling }
  sentFolder := none

def plainForward : ForwardInput where
  folder := "INBOX"
  uid := .one
  recipients := [⟨none, "you@example.com"⟩]
  cc := none
  bcc := none
  comment := none

/-- An attempt that uses up each of the default budgets. -/
def slowAttempt {α : Type} (result : Except SessionError α) : Awaits α where
  lockWait := seconds 30
  handshake := some ⟨⟨.ok (), seconds 4⟩, ⟨.ok (), seconds 3⟩, ⟨.ok (), seconds 3⟩⟩
  body := ⟨result, seconds 30⟩

/-- Every stage is slow, and the fetch may lose its connection. -/
def slowWorld (lost : Bool) : World where
  fetch := slowAttempt (if lost then .error (.command .connectionLost) else .ok [])
  refetch := slowAttempt (.ok [])
  dialog := ⟨.ok "250 ok", seconds 30⟩
  append := slowAttempt (.ok (some 7))

/-- Retried, the forward takes 240 s under an accepted ceiling of 170 s: the mail is
    out and its copy is stored, and the answer is a timeout. -/
theorem forward_retried_exceeds_ceiling :
    Accepted (defaultAccount 170) ∧
      (SendCall.handle plainSendLibs (defaultAccount 170) (slowWorld true)
        (.forward plainForward)).elapsed = seconds 240 ∧
      (SendCall.handle plainSendLibs (defaultAccount 170) (slowWorld true)
        (.forward plainForward)).outcome.isOk = true ∧
      ¬ (SendCall.handle plainSendLibs (defaultAccount 170) (slowWorld true)
        (.forward plainForward)).elapsed ≤ seconds 170 ∧
      (withToolCallCeiling (defaultAccount 170) (SendCall.handle plainSendLibs (defaultAccount 170)
        (slowWorld true) (.forward plainForward))).outcome.isOk = false := by
  decide +kernel

theorem handle_within_ceiling_plainForward :
    Accepted (defaultAccount 170) ∧ ¬ FirstAttemptLost (defaultAccount 170) (slowWorld false) ∧
      (SendCall.handle plainSendLibs (defaultAccount 170) (slowWorld false)
        (.forward plainForward)).elapsed ≤ seconds 170 := by
  have haccepted : Accepted (defaultAccount 170) := by decide +kernel
  have honce : ¬ FirstAttemptLost (defaultAccount 170) (slowWorld false) := by
    unfold FirstAttemptLost
    decide +kernel
  exact ⟨haccepted, honce,
    (handle_within_ceiling plainSendLibs (defaultAccount 170) (slowWorld false)
      (.forward plainForward) haccepted (.inr (.inl honce))).1⟩

end RustyImap.SendDeadline
