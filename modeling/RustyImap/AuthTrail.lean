import RustyImap.ConnectProtocol
import RustyImap.SessionDispatch

/-!
# The auth records of a connection

`auth.rs`, `enrich_tls_handshake_error`, `emit_auth` and `connect_inner` with the
drop of its `AuthEmitGuard` (`rimap-imap/src/connection/mod.rs`, `login.rs`), and
the connection over any interleaving of calls: `SessionDispatch`, with every
connect an attempt of `ConnectProtocol`.

The sink answers a record as it likes.  What the sink does with a record that it
accepts is not said here.
-/

namespace RustyImap.AuthTrail

open RustyImap.EventHistory RustyImap.LabelledRuns
open RustyImap.ConnectProtocol
open RustyImap.Config (TlsFingerprint ImapEncryption CredentialSource hexByte)
open RustyImap.Record (AuthEvent AuthResult)

variable {Cert σ : Type}

/-! ## Records -/

/-- `to_hex`. -/
def toHex (fingerprint : TlsFingerprint) : String := .ofList (fingerprint.bytes.flatMap hexByte)

structure AuthContext where
  account : Option String
  host : String
  port : UInt16
  username : String
  pinned : Option TlsFingerprint
  observed : Option TlsFingerprint
  credentialSource : Option CredentialSource

namespace AuthContext

def fingerprintMatch (ctx : AuthContext) : Option Bool :=
  match ctx.pinned, ctx.observed with
  | some p, some o => some (p == o)
  | _, _ => none

def observedHex (ctx : AuthContext) : Option String := ctx.observed.map toHex

def event (ctx : AuthContext) (result : AuthResult) (errorCode : Option ErrorCode) : AuthEvent where
  account := ctx.account
  result := result
  host := ctx.host
  port := ctx.port
  username := ctx.username
  tlsFingerprintSha256 := ctx.observedHex
  fingerprintMatch := ctx.fingerprintMatch
  errorCode := errorCode
  credentialSource := ctx.credentialSource

end AuthContext

def authSuccess (ctx : AuthContext) : AuthEvent := ctx.event .success none

def authFailure (ctx : AuthContext) (errorCode : ErrorCode) : AuthEvent :=
  ctx.event .failure (some errorCode)

/-- `auth_context`, the one reader of the two slots. -/
def authContext (cfg : ConnectionConfig) (p : Progress Cert σ) : AuthContext where
  account := cfg.account
  host := cfg.host
  port := cfg.port
  username := cfg.username
  pinned := cfg.pinnedFingerprint
  observed := p.lastObserved
  credentialSource := p.credentialSource

def enrichTlsHandshakeError (err : ImapError) (observed pinned : Option TlsFingerprint) :
    ImapError :=
  match err with
  | .tlsHandshake =>
      match pinned, observed with
      | some expected, some observed =>
          if expected ≠ observed then .tls observed expected else .tlsHandshake
      | _, _ => .tlsHandshake
  | other => other

/-- What the sink does with a record. -/
inductive SinkAnswer where
  | accepted
  | refused (message : String)
  | panicked
deriving DecidableEq, Repr

/-- `emit_auth`, which contains a panic of the sink. -/
def emitAuth : SinkAnswer → Except ImapError Unit
  | .accepted => .ok ()
  | .refused message => .error (.audit "emit_auth" message)
  | .panicked => .error (.audit "emit_auth" "auth-event sink panicked")

/-! ## One attempt -/

/-- How an attempt ended: none for a future that is dropped. -/
structure Attempt (Cert σ : Type) where
  outcome : Option (Except ImapError (SessionEntry Cert))
  offered : List (AuthEvent × SinkAnswer)     -- the calls of the sink's `emit_auth`
  noted : Nat                                 -- and of its `note_auth_write_lost`
  progress : Progress Cert σ

/-- A record whose loss no caller is told. -/
def notedLoss (answer : SinkAnswer) : Nat :=
  match emitAuth answer with
  | .ok () => 0
  | .error _ => 1

/-- `connect_inner`; a dropped future leaves its record to `AuthEmitGuard`. -/
def connectInner (tls : Tls Cert) (cfg : ConnectionConfig) (peer : Peer Cert σ)
    (answer : SinkAnswer) : Attempt Cert σ :=
  match buildTlsConfig cfg peer with
  | .error e => ⟨some (.error e), [], 0, {}⟩
  | .ok verifier =>
      let (outcome, progress) := (connectWithBundle tls cfg peer verifier).run.run {}
      let ctx := authContext cfg progress
      match outcome with
      | .error .dropped =>
          ⟨none, [(authFailure ctx .cancelled, answer)], notedLoss answer, progress⟩
      | .error (.failed e) =>
          let err := enrichTlsHandshakeError e progress.lastObserved cfg.pinnedFingerprint
          ⟨some (.error err), [(authFailure ctx err.code, answer)], notedLoss answer, progress⟩
      | .ok entry =>
          -- a record that is refused fails the connect
          ⟨some ((emitAuth answer).map fun _ => entry), [(authSuccess ctx, answer)], 0, progress⟩

/-- What the emit does with an attempt that stopped short. -/
def failedAttempt (outcome : Option (Except ImapError (SessionEntry Cert))) (code : ErrorCode)
    (cfg : ConnectionConfig) (answer : SinkAnswer) (p : Progress Cert σ) : Attempt Cert σ :=
  ⟨outcome, [(authFailure (authContext cfg p) code, answer)], notedLoss answer, p⟩

/-- The three ways to end an attempt that has a TLS configuration. -/
theorem connectInner_cases (tls : Tls Cert) (cfg : ConnectionConfig) (peer : Peer Cert σ)
    (answer : SinkAnswer) {verifier : Verifier}
    (hverifier : buildTlsConfig cfg peer = .ok verifier) :
    (∃ p, Stopped tls cfg verifier .dropped p ∧
      connectInner tls cfg peer answer = failedAttempt none .cancelled cfg answer p) ∨
    (∃ e p, Stopped tls cfg verifier (.failed e) p ∧
      connectInner tls cfg peer answer =
        failedAttempt
          (some (.error (enrichTlsHandshakeError e p.lastObserved cfg.pinnedFingerprint)))
          (enrichTlsHandshakeError e p.lastObserved cfg.pinnedFingerprint).code cfg answer p) ∨
    ∃ entry p, SessionPhase tls cfg verifier entry.channel p ∧
      connectInner tls cfg peer answer =
        ⟨some ((emitAuth answer).map fun _ => entry), [(authSuccess (authContext cfg p), answer)],
          0, p⟩ := by
  have hstart : PlainPhase tls cfg verifier ({} : Progress Cert σ) := ⟨sound_empty, nofun⟩
  have hends := ends_of_triple (@connectWithBundle_spec Cert σ tls cfg peer verifier) hstart
  rw [connectInner, hverifier]
  rcases hrun : (connectWithBundle tls cfg peer verifier).run.run {} with ⟨(e | _) | entry, p⟩
  · rw [hrun] at hends
    exact .inr (.inl ⟨e, p, hends, by simp only [hrun]; rfl⟩)
  · rw [hrun] at hends
    exact .inl ⟨p, hends, by simp only [hrun]; rfl⟩
  · rw [hrun] at hends
    exact .inr (.inr ⟨entry, p, hends, by simp only [hrun]⟩)

/-- Every attempt keeps its history in order, wherever it ends. -/
theorem sound_connectInner (tls : Tls Cert) (cfg : ConnectionConfig) (peer : Peer Cert σ)
    (answer : SinkAnswer) {verifier : Verifier}
    (hverifier : buildTlsConfig cfg peer = .ok verifier) :
    Sound tls cfg verifier (connectInner tls cfg peer answer).progress := by
  rcases connectInner_cases tls cfg peer answer hverifier with
    ⟨p, hp, heq⟩ | ⟨e, p, hp, heq⟩ | ⟨entry, p, hp, heq⟩
  · rw [heq]
    exact hp.sound
  · rw [heq]
    exact hp.sound
  · rw [heq]
    exact hp.sound

/-! ## Where a password goes -/

/-- The check that the configuration asks for. -/
def ConfiguredCheck (tls : Tls Cert) (cfg : ConnectionConfig) (cert : Cert) : Prop :=
  match cfg.pinnedFingerprint with
  | some pin => tls.fromCertDer cert = pin
  | none => tls.webpki cfg.host cert = true

theorem configuredCheck_iff (tls : Tls Cert) (cfg : ConnectionConfig) (peer : Peer Cert σ)
    {verifier : Verifier} (hverifier : buildTlsConfig cfg peer = .ok verifier) (cert : Cert) :
    ConfiguredCheck tls cfg cert ↔ verifier.accepts tls cfg cert = true := by
  unfold buildTlsConfig at hverifier
  unfold ConfiguredCheck
  split at hverifier
  · cases hverifier
  · rcases hpin : cfg.pinnedFingerprint with _ | pin
    · rw [hpin] at hverifier
      cases hverifier
      rfl
    · rw [hpin] at hverifier
      cases hverifier
      rw [Verifier.accepts, beq_iff_eq]
      exact eq_comm

/-- What the history of an attempt may hold. -/
structure Guarded (tls : Tls Cert) (cfg : ConnectionConfig) (history : List (Event Cert σ)) :
    Prop where
  login : ∀ channel username password, .sent channel (.login username password) ∈ history →
    username = cfg.username ∧ (∃ source, .resolved password source ∈ history) ∧
      ∃ cert, channel = some cert ∧ .presented cert ∈ history ∧ ConfiguredCheck tls cfg cert
  once : history.countP Event.isLogin ≤ 1
  resolved : ∀ password source, .resolved password source ∈ history →
    ∃ cert rx, .listed (some cert) rx ∈ history ∧ drainForLogindisabled rx = false ∧
      .presented cert ∈ history ∧ ConfiguredCheck tls cfg cert
  plain : ∀ before event after, history = before ++ event :: after → event.isPlain = true →
    cfg.encryption = .starttls ∧ (∀ e ∈ before, e.isPlain = true) ∧
      ∀ command, event = .sent none command → command = .capability ∨ command = .starttls

theorem guarded_of_licensed {tls : Tls Cert} {cfg : ConnectionConfig} {verifier : Verifier}
    {history : List (Event Cert σ)} (hlic : Licensed (Allowed tls cfg verifier) history)
    (hcheck : ∀ cert, ConfiguredCheck tls cfg cert ↔ verifier.accepts tls cfg cert = true) :
    Guarded tls cfg history where
  login := by
    intro channel username password hmem
    obtain ⟨before, after, rfl, hok⟩ := hlic.exists_before hmem
    rcases channel with _ | cert
    · rcases hok.2.1 with h | h <;> cases h
    · obtain ⟨hname, ⟨source, hsource⟩, htrusted, -⟩ := hok
      refine ⟨hname, ⟨source, by simp [hsource]⟩, cert, rfl, ?_, ?_⟩
      · simp [htrusted.presented]
      · exact (hcheck cert).mpr htrusted.accepted
  once := by
    apply hlic.countP_le_one
    intro before event hok hlogin
    rcases event with _ | ⟨_ | cert, command⟩ | _ | _ | _ <;> try cases hlogin
    · rcases command with _ | _ | ⟨username, password⟩ <;> try cases hlogin
      rcases hok.2.1 with h | h <;> cases h
    · rcases command with _ | _ | ⟨username, password⟩ <;> try cases hlogin
      exact hok.2.2.2
  resolved := by
    intro password source hmem
    obtain ⟨before, after, rfl, ⟨cert, rx, hlisted, henabled, htrusted⟩, -⟩ :=
      hlic.exists_before hmem
    refine ⟨cert, rx, by simp [hlisted], henabled, ?_, ?_⟩
    · simp [htrusted.presented]
    · exact (hcheck cert).mpr htrusted.accepted
  plain := by
    intro before event after heq hplain
    have hok := hlic before event after heq
    rcases event with _ | ⟨_ | cert, command⟩ | ⟨_ | cert, rx⟩ | _ | _ <;> try cases hplain
    · refine ⟨hok.1, hok.2.2, ?_⟩
      rintro _ ⟨rfl⟩
      exact hok.2.1
    · exact ⟨hok.1, hok.2, nofun⟩

/-- **Where a password goes.**  However the peer answers and wherever the attempt is cut:
    a password is sent once at most, under the configured name and on a channel whose
    peer has shown a certificate that passes the configured check; it is not even
    resolved before such a peer has listed its capabilities without LOGINDISABLED; and
    what is said in the clear comes before any certificate. -/
theorem guarded_connectInner (tls : Tls Cert) (cfg : ConnectionConfig) (peer : Peer Cert σ)
    (answer : SinkAnswer) :
    Guarded tls cfg (connectInner tls cfg peer answer).progress.history := by
  rcases hverifier : buildTlsConfig cfg peer with e | verifier
  · have hempty : (connectInner tls cfg peer answer).progress.history = [] := by
      rw [connectInner, hverifier]
    rw [hempty]
    exact ⟨nofun, Nat.zero_le 1, nofun, by simp⟩
  · exact guarded_of_licensed (sound_connectInner tls cfg peer answer hverifier).licensed
      (configuredCheck_iff tls cfg peer hverifier)

/-! ## What a record says -/

/-- The certificate that the peer has shown and the source of the password, as the
    history has them. -/
def presented? (tls : Tls Cert) (history : List (Event Cert σ)) : Option TlsFingerprint :=
  history.findSome? (Event.fingerprint? tls)

def resolved? (history : List (Event Cert σ)) : Option CredentialSource :=
  history.findSome? Event.source?

/-- The verdict of a record against the end of its attempt. -/
def Verdict (attempt : Attempt Cert σ) (event : AuthEvent) (answer : SinkAnswer) : Prop :=
  match attempt.outcome with
  | none => event.result = .failure ∧ event.errorCode = some .cancelled
  | some (.ok entry) =>
      event.result = .success ∧ event.errorCode = none ∧ answer = .accepted ∧
        .loggedIn entry.channel ∈ attempt.progress.history
  | some (.error e) =>
      (event.result = .failure ∧ event.errorCode = some e.code) ∨
        -- the session is given up because its record was refused
        event.result = .success ∧ event.errorCode = none ∧ emitAuth answer = .error e ∧
          ∃ cert, .loggedIn cert ∈ attempt.progress.history

/-- A record that says what happened. -/
structure Truthful (tls : Tls Cert) (cfg : ConnectionConfig) (attempt : Attempt Cert σ)
    (event : AuthEvent) (answer : SinkAnswer) : Prop where
  identity : event.account = cfg.account ∧ event.host = cfg.host ∧ event.port = cfg.port ∧
    event.username = cfg.username
  fingerprint : event.tlsFingerprintSha256 =
    (presented? tls attempt.progress.history).map toHex
  fingerprintMatch : ∀ b, event.fingerprintMatch = some b ↔
    ∃ pin observed, cfg.pinnedFingerprint = some pin ∧
      presented? tls attempt.progress.history = some observed ∧ b = decide (pin = observed)
  credentialSource : event.credentialSource = resolved? attempt.progress.history
  verdict : Verdict attempt event answer
  mismatch : event.fingerprintMatch = some false →
    event.credentialSource = none ∧ event.result = .failure ∧
      (attempt.outcome = none ∨ (∃ op, attempt.outcome = some (.error (.timeout op))) ∨
        ∃ observed pin, attempt.outcome = some (.error (.tls observed pin)) ∧ observed ≠ pin)
  noted : attempt.noted = if event.result = .failure ∧ answer ≠ .accepted then 1 else 0

theorem emitAuth_eq_ok_iff (answer : SinkAnswer) :
    emitAuth answer = .ok () ↔ answer = .accepted := by
  cases answer <;> simp [emitAuth]

theorem notedLoss_eq (answer : SinkAnswer) :
    notedLoss answer = if answer ≠ .accepted then 1 else 0 := by
  cases answer <;> rfl

theorem fingerprintMatch_iff {tls : Tls Cert} {cfg : ConnectionConfig} {verifier : Verifier}
    {p : Progress Cert σ} (hp : Sound tls cfg verifier p) (b : Bool) :
    (authContext cfg p).fingerprintMatch = some b ↔
      ∃ pin observed, cfg.pinnedFingerprint = some pin ∧
        presented? tls p.history = some observed ∧ b = decide (pin = observed) := by
  have hobserved : (authContext cfg p).observed = presented? tls p.history := hp.observed
  rw [AuthContext.fingerprintMatch, hobserved]
  rcases hpin : cfg.pinnedFingerprint with _ | pin
  · simp [authContext, hpin]
  · rcases presented? tls p.history with _ | observed
    · simp [authContext, hpin]
    · simp only [authContext, hpin, Option.some.injEq, exists_eq_left', ↓existsAndEq, true_and]
      exact eq_comm

/-- A peer shows one certificate. -/
theorem presented_unique {tls : Tls Cert} {cfg : ConnectionConfig} {verifier : Verifier}
    {history : List (Event Cert σ)} (hlic : Licensed (Allowed tls cfg verifier) history)
    {c c' : Cert} (hc : .presented c ∈ history) (hc' : .presented c' ∈ history) : c = c' := by
  obtain ⟨before, after, heq, hok⟩ := hlic.exists_before hc
  rw [heq, List.mem_append, List.mem_cons] at hc'
  rcases hc' with hbefore | hhere | hafter
  · exact absurd (hok _ hbefore) (by simp [Event.isPlain])
  · cases hhere
    rfl
  · -- then the first certificate is among the events before the second
    obtain ⟨front, back, rfl⟩ := List.append_of_mem hafter
    have hsecond := hlic (before ++ .presented c :: front) (.presented c') back (by simp [heq])
    exact absurd (hsecond (.presented c) (by simp)) (by simp [Event.isPlain])

/-- A mismatch is a certificate that the verifier refuses. -/
theorem refused_of_mismatch {tls : Tls Cert} {cfg : ConnectionConfig} {peer : Peer Cert σ}
    {verifier : Verifier} (hverifier : buildTlsConfig cfg peer = .ok verifier)
    {p : Progress Cert σ} (hp : Sound tls cfg verifier p)
    (hmismatch : (authContext cfg p).fingerprintMatch = some false) :
    ∃ pin cert, cfg.pinnedFingerprint = some pin ∧ p.lastObserved = some (tls.fromCertDer cert) ∧
      tls.fromCertDer cert ≠ pin ∧ .presented cert ∈ p.history ∧
        verifier.accepts tls cfg cert = false := by
  obtain ⟨pin, observed, hpin, hobserved, hne⟩ := (fingerprintMatch_iff hp false).mp hmismatch
  obtain ⟨event, hmem, hevent⟩ := List.exists_of_findSome?_eq_some hobserved
  rcases event with cert | _ | _ | _ | _ <;> try cases hevent
  have hdiffer : tls.fromCertDer cert ≠ pin := fun heq => by simp [heq] at hne
  refine ⟨pin, cert, hpin, by rw [hp.observed]; exact hobserved, hdiffer, hmem, ?_⟩
  have hcheck := configuredCheck_iff tls cfg peer hverifier cert
  rw [ConfiguredCheck, hpin] at hcheck
  exact Bool.eq_false_of_not_eq_true fun haccepts => hdiffer (hcheck.mpr haccepts)

/-- With a certificate that is refused, no password has been resolved. -/
theorem refused_unresolved {tls : Tls Cert} {cfg : ConnectionConfig} {verifier : Verifier}
    {p : Progress Cert σ} (hp : Sound tls cfg verifier p) {cert : Cert}
    (hpresented : .presented cert ∈ p.history)
    (hrefused : verifier.accepts tls cfg cert = false) : p.credentialSource = none := by
  rw [hp.source, List.findSome?_eq_none_iff]
  intro event hmem
  rcases event with _ | _ | _ | ⟨password, source⟩ | _ <;> try rfl
  obtain ⟨before, after, heq, ⟨other, rx, -, -, htrusted⟩, -⟩ := hp.licensed.exists_before hmem
  have hother : .presented other ∈ p.history := by simp [heq, htrusted.presented]
  have haccepted := htrusted.accepted
  rw [presented_unique hp.licensed hother hpresented, hrefused] at haccepted
  cases haccepted

/-- The parts of a record that the outcome does not touch. -/
theorem truthful_of_context {tls : Tls Cert} {cfg : ConnectionConfig} {verifier : Verifier}
    {attempt : Attempt Cert σ} {answer : SinkAnswer} {result : AuthResult}
    {code : Option ErrorCode} (hp : Sound tls cfg verifier attempt.progress)
    (hverdict : Verdict attempt ((authContext cfg attempt.progress).event result code) answer)
    (hmismatch : (authContext cfg attempt.progress).fingerprintMatch = some false →
      attempt.progress.credentialSource = none ∧ result = .failure ∧
        (attempt.outcome = none ∨ (∃ op, attempt.outcome = some (.error (.timeout op))) ∨
          ∃ observed pin, attempt.outcome = some (.error (.tls observed pin)) ∧ observed ≠ pin))
    (hnoted : attempt.noted = if result = .failure ∧ answer ≠ .accepted then 1 else 0) :
    Truthful tls cfg attempt ((authContext cfg attempt.progress).event result code) answer where
  identity := ⟨rfl, rfl, rfl, rfl⟩
  fingerprint := congrArg (Option.map toHex) hp.observed
  fingerprintMatch := fingerprintMatch_iff hp
  credentialSource := hp.source
  verdict := hverdict
  mismatch := hmismatch
  noted := hnoted

/-- The record of an attempt that has a TLS configuration. -/
theorem truthful_connectInner (tls : Tls Cert) (cfg : ConnectionConfig) (peer : Peer Cert σ)
    (answer : SinkAnswer) {verifier : Verifier}
    (hverifier : buildTlsConfig cfg peer = .ok verifier) :
    ∃ event, (connectInner tls cfg peer answer).offered = [(event, answer)] ∧
      Truthful tls cfg (connectInner tls cfg peer answer) event answer := by
  rcases connectInner_cases tls cfg peer answer hverifier with
    ⟨p, hp, heq⟩ | ⟨e, p, hp, heq⟩ | ⟨entry, p, hp, heq⟩
  · -- the future is dropped
    rw [heq]
    have hsound : Sound tls cfg verifier (failedAttempt none .cancelled cfg answer p).progress :=
      hp.sound
    refine ⟨_, rfl, truthful_of_context hsound ⟨rfl, rfl⟩ ?_
      (by simp [failedAttempt, notedLoss_eq])⟩
    intro hmismatch
    obtain ⟨pin, cert, -, -, -, hmem, hrefused⟩ := refused_of_mismatch hverifier hp.sound hmismatch
    exact ⟨refused_unresolved hp.sound hmem hrefused, rfl, .inl rfl⟩
  · rw [heq]
    refine ⟨_, rfl, @truthful_of_context _ _ _ _ _ (failedAttempt _ _ cfg answer p) _ _ _
      hp.sound (.inl ⟨rfl, rfl⟩) ?_ (by simp [failedAttempt, notedLoss_eq])⟩
    intro hmismatch
    obtain ⟨pin, cert, hpin, hobserved, hne, hmem, hrefused⟩ :=
      refused_of_mismatch hverifier hp.sound hmismatch
    refine ⟨refused_unresolved hp.sound hmem hrefused, rfl, .inr ?_⟩
    rcases hp.refused cert hmem hrefused with h | ⟨op, h⟩ | h
    · cases h
      have hpin' : pin ≠ tls.fromCertDer cert := fun h => hne h.symm
      refine .inr ⟨tls.fromCertDer cert, pin, ?_, hne⟩
      simp [failedAttempt, enrichTlsHandshakeError, hpin, hobserved, hpin']
    · cases h
      exact .inl ⟨op, rfl⟩
    · cases h
  · rw [heq]
    refine ⟨_, rfl, @truthful_of_context _ _ _ _ _ ⟨_, _, 0, p⟩ _ _ _ hp.sound ?_ ?_ (by simp)⟩
    · rcases hanswer : emitAuth answer with e | _
      · exact .inr ⟨rfl, rfl, hanswer, entry.channel, hp.loggedIn⟩
      · exact ⟨rfl, rfl, (emitAuth_eq_ok_iff answer).mp hanswer, hp.loggedIn⟩
    · intro hmismatch
      obtain ⟨pin, cert, -, -, -, hmem, hrefused⟩ :=
        refused_of_mismatch hverifier hp.sound hmismatch
      rw [hp.unique cert hmem, hp.trusted.accepted] at hrefused
      cases hrefused

theorem buildTlsConfig_of_tlsConfig (cfg : ConnectionConfig) {peer : Peer Cert σ}
    (hconfig : peer.tlsConfig = true) : ∃ verifier, buildTlsConfig cfg peer = .ok verifier := by
  rcases hpin : cfg.pinnedFingerprint with _ | pin <;> simp [buildTlsConfig, hconfig, hpin]

inductive Label (Cert σ : Type) where
  | connect (peer : Peer Cert σ) (answer : SinkAnswer)
  | call (label : SessionDispatch.Label)

structure World (Cert σ : Type) where
  dispatch : SessionDispatch.State
  entry : Option (SessionEntry Cert)      -- what the slot holds
  attempts : List (Attempt Cert σ)
  served : List (SessionEntry Cert)       -- what the bodies of commands were started on

def World.init : World Cert σ := ⟨.init, none, [], []⟩

/-- What the dispatch sees of an attempt; no connect ends with `ConnectionLost`. -/
def Attempt.label (attempt : Attempt Cert σ) : SessionDispatch.Label :=
  match attempt.outcome with
  | some (.ok entry) => .connect entry.capabilities
  | _ => .connectFails false

def Attempt.entry? (attempt : Attempt Cert σ) : Option (SessionEntry Cert) :=
  match attempt.outcome with
  | some (.ok entry) => some entry
  | _ => none

def isConnect : SessionDispatch.Label → Bool
  | .connect _ | .connectFails _ => true
  | _ => false

/-- The entry lives as long as the slot is filled. -/
def World.advance (w : World Cert σ) (dispatch : SessionDispatch.State)
    (entry : Option (SessionEntry Cert)) (attempts : List (Attempt Cert σ)) : World Cert σ :=
  let entry := if dispatch.slot.isSome then entry else none
  { dispatch := dispatch
    entry := entry
    attempts := attempts
    served :=
      if w.dispatch.starts.length < dispatch.starts.length then w.served ++ entry.toList
      else w.served }

def step (tls : Tls Cert) (cfg : ConnectionConfig) (w : World Cert σ) :
    Label Cert σ → Option (World Cert σ)
  | .connect peer answer => do
      let attempt := connectInner tls cfg peer answer
      let dispatch ← SessionDispatch.step w.dispatch attempt.label
      some (w.advance dispatch (attempt.entry?.or w.entry) (w.attempts ++ [attempt]))
  | .call label =>
      if isConnect label then none
      else do
        let dispatch ← SessionDispatch.step w.dispatch label
        some (w.advance dispatch w.entry w.attempts)

/-! ### What a step of the dispatch does to the slot -/

open SessionDispatch (Session) in
/-- The slot keeps its session or is emptied, and a body starts on what is in the slot. -/
structure Carries (s t : SessionDispatch.State) : Prop where
  slot : t.slot.map Session.caps = s.slot.map Session.caps ∨ t.slot = none
  starts : t.starts = s.starts ∨ ∃ session, t.slot = some session ∧ t.starts = s.starts ++ [session]

theorem takePoisoned_slot (s : SessionDispatch.State) :
    ((SessionDispatch.takePoisoned s).slot = s.slot ∨
      (SessionDispatch.takePoisoned s).slot = none) ∧
      (SessionDispatch.takePoisoned s).starts = s.starts := by
  unfold SessionDispatch.takePoisoned
  split
  · exact ⟨.inr rfl, rfl⟩
  · exact ⟨.inl rfl, rfl⟩

theorem carries_of_call {s t : SessionDispatch.State} {label : SessionDispatch.Label}
    (hlabel : isConnect label = false) (hstep : SessionDispatch.step s label = some t) :
    Carries s t := by
  rcases label with op | i | _ | caps | lost | events | _
  · cases hstep
    exact ⟨.inl rfl, .inl rfl⟩
  · simp only [SessionDispatch.step] at hstep
    split at hstep
    · cases hstep
      exact ⟨.inl rfl, .inl rfl⟩
    · cases hstep
  · simp only [SessionDispatch.step] at hstep
    split at hstep
    · rename_i call rest _ _
      obtain ⟨hslot, hstarts⟩ := takePoisoned_slot { s with queue := rest }
      split at hstep
      · rename_i session hsession
        cases hstep
        refine ⟨?_, .inr ⟨session, hsession, by rw [hstarts]⟩⟩
        rcases hslot with h | h
        · exact .inl (by rw [h])
        · exact .inr h
      · rename_i hnone
        cases hstep
        exact ⟨.inr hnone, .inl hstarts⟩
    · cases hstep
  · cases hlabel
  · cases hlabel
  · simp only [SessionDispatch.step] at hstep
    split at hstep
    · rename_i session _ hsession
      cases hstep
      exact ⟨.inl (by rw [hsession]; rfl), .inl rfl⟩
    · cases hstep
  · cases hstep
    exact ⟨.inl rfl, .inl rfl⟩

/-! ### Sessions on record -/

/-- A session whose peer passed the configured check and whose login is a record that
    the sink has accepted. -/
def Established (tls : Tls Cert) (cfg : ConnectionConfig) (attempts : List (Attempt Cert σ))
    (entry : SessionEntry Cert) : Prop :=
  ∃ attempt ∈ attempts, attempt.outcome = some (.ok entry) ∧
    ConfiguredCheck tls cfg entry.channel ∧
    .presented entry.channel ∈ attempt.progress.history ∧
    .loggedIn entry.channel ∈ attempt.progress.history ∧
    ∃ event, attempt.offered = [(event, .accepted)] ∧ event.result = .success ∧
      Truthful tls cfg attempt event .accepted

theorem Established.mono {tls : Tls Cert} {cfg : ConnectionConfig}
    {attempts attempts' : List (Attempt Cert σ)} (hsub : ∀ a ∈ attempts, a ∈ attempts')
    {entry : SessionEntry Cert} (h : Established tls cfg attempts entry) :
    Established tls cfg attempts' entry := by
  obtain ⟨attempt, hmem, hrest⟩ := h
  exact ⟨attempt, hsub attempt hmem, hrest⟩

theorem established_of_outcome (tls : Tls Cert) (cfg : ConnectionConfig) (peer : Peer Cert σ)
    (answer : SinkAnswer) {entry : SessionEntry Cert}
    (hok : (connectInner tls cfg peer answer).outcome = some (.ok entry))
    (before : List (Attempt Cert σ)) :
    Established tls cfg (before ++ [connectInner tls cfg peer answer]) entry := by
  rcases hverifier : buildTlsConfig cfg peer with e | verifier
  · simp [connectInner, hverifier] at hok
  · obtain ⟨event, hoffered, htruth⟩ := truthful_connectInner tls cfg peer answer hverifier
    have hverdict := htruth.verdict
    rw [Verdict, hok] at hverdict
    obtain ⟨hresult, -, rfl, hlogged⟩ := hverdict
    obtain ⟨front, back, heq, htrusted, -⟩ :=
      (sound_connectInner tls cfg peer .accepted hverifier).licensed.exists_before hlogged
    refine ⟨_, by simp, hok, ?_, ?_, hlogged, event, hoffered, hresult, htruth⟩
    · exact (configuredCheck_iff tls cfg peer hverifier _).mpr htrusted.accepted
    · rw [heq]
      simp [htrusted.presented]

open SessionDispatch (Session) in
structure Recorded (tls : Tls Cert) (cfg : ConnectionConfig) (w : World Cert σ) : Prop where
  slot : w.dispatch.slot.map Session.caps = w.entry.map SessionEntry.capabilities
  entry : ∀ entry, w.entry = some entry → Established tls cfg w.attempts entry
  starts : w.dispatch.starts.map Session.caps = w.served.map SessionEntry.capabilities
  served : ∀ entry ∈ w.served, Established tls cfg w.attempts entry

open SessionDispatch (Session) in
theorem Recorded.advance {tls : Tls Cert} {cfg : ConnectionConfig} {w : World Cert σ}
    (h : Recorded tls cfg w) {t : SessionDispatch.State} {entry : Option (SessionEntry Cert)}
    {attempts : List (Attempt Cert σ)} (hsub : ∀ a ∈ w.attempts, a ∈ attempts)
    (hslot : t.slot.map Session.caps = entry.map SessionEntry.capabilities ∨ t.slot = none)
    (hentry : ∀ e, entry = some e → Established tls cfg attempts e)
    (hstarts : t.starts = w.dispatch.starts ∨
      ∃ session, t.slot = some session ∧ t.starts = w.dispatch.starts ++ [session]) :
    Recorded tls cfg (w.advance t entry attempts) := by
  have hold : ∀ e ∈ w.served, Established tls cfg attempts e :=
    fun e he => (h.served e he).mono hsub
  rcases hslotted : t.slot with _ | session
  · -- no session is left, so no body has started
    have hsame : t.starts = w.dispatch.starts := by
      rcases hstarts with h | ⟨session, hsome, -⟩
      · exact h
      · rw [hslotted] at hsome
        cases hsome
    constructor
    · simp [World.advance, hslotted]
    · simp [World.advance, hslotted]
    · simpa [World.advance, hsame] using h.starts
    · simpa [World.advance, hsame] using hold
  · have hcaps : entry.map SessionEntry.capabilities = some session.caps := by
      rcases hslot with heq | hnone
      · rw [← heq, hslotted]
        rfl
      · rw [hslotted] at hnone
        cases hnone
    obtain ⟨e, rfl, hecaps⟩ := Option.map_eq_some_iff.mp hcaps
    rcases hstarts with hsame | ⟨started, hstarted, hmore⟩
    · constructor
      · simp [World.advance, hslotted, hecaps]
      · simpa [World.advance, hslotted] using hentry
      · simpa [World.advance, hsame] using h.starts
      · simpa [World.advance, hsame] using hold
    · rw [hslotted] at hstarted
      cases hstarted
      constructor
      · simp [World.advance, hslotted, hecaps]
      · simpa [World.advance, hslotted] using hentry
      · simp [World.advance, hmore, hslotted, h.starts, hecaps]
      · intro other hmem
        have hmem' : other ∈ w.served ∨ other = e := by
          simpa [World.advance, hmore, hslotted] using hmem
        rcases hmem' with hserved | rfl
        · exact hold other hserved
        · exact hentry other rfl

open SessionDispatch (Session) in
theorem recorded_step {tls : Tls Cert} {cfg : ConnectionConfig} {w w' : World Cert σ}
    {label : Label Cert σ} (h : Recorded tls cfg w) (hstep : step tls cfg w label = some w') :
    Recorded tls cfg w' := by
  rcases label with ⟨peer, answer⟩ | label
  · simp only [step, Option.bind_eq_bind, Option.bind_eq_some_iff, Option.some.injEq] at hstep
    obtain ⟨t, ht, rfl⟩ := hstep
    have hsub : ∀ a ∈ w.attempts, a ∈ w.attempts ++ [connectInner tls cfg peer answer] :=
      fun a ha => List.mem_append_left _ ha
    have hkept : ∀ e, w.entry = some e →
        Established tls cfg (w.attempts ++ [connectInner tls cfg peer answer]) e :=
      fun e he => (h.entry e he).mono hsub
    rcases hout : (connectInner tls cfg peer answer).outcome with _ | e | entry
    · rw [Attempt.label, hout, SessionDispatch.step] at ht
      split at ht
      · cases ht
        rw [Attempt.entry?, hout]
        exact h.advance hsub (.inl h.slot) hkept (.inl rfl)
      · cases ht
    · rw [Attempt.label, hout, SessionDispatch.step] at ht
      split at ht
      · cases ht
        rw [Attempt.entry?, hout]
        exact h.advance hsub (.inl h.slot) hkept (.inl rfl)
      · cases ht
    · rw [Attempt.label, hout, SessionDispatch.step] at ht
      split at ht
      · cases ht
        rw [Attempt.entry?, hout]
        refine h.advance hsub (.inl rfl) ?_ (.inr ⟨_, rfl, rfl⟩)
        rintro _ ⟨rfl⟩
        exact established_of_outcome tls cfg peer answer hout w.attempts
      · cases ht
  · simp only [step] at hstep
    split at hstep
    · cases hstep
    · rename_i hlabel
      simp only [Option.bind_eq_bind, Option.bind_eq_some_iff, Option.some.injEq] at hstep
      obtain ⟨t, ht, rfl⟩ := hstep
      have hcarries := carries_of_call (Bool.eq_false_of_not_eq_true hlabel) ht
      refine h.advance (fun a ha => ha) ?_ h.entry hcarries.starts
      rw [← h.slot]
      exact hcarries.slot

/-- **No command without a record.**  In every interleaving of calls, connects, cuts and
    poisonings, each command body runs on a session whose peer passed the configured
    certificate check and whose login is a success record that the sink has accepted. -/
theorem served_sessions_recorded (tls : Tls Cert) (cfg : ConnectionConfig)
    (labels : List (Label Cert σ)) {w : World Cert σ}
    (hrun : run (step tls cfg) World.init labels = some w) :
    w.dispatch.starts.map SessionDispatch.Session.caps =
        w.served.map SessionEntry.capabilities ∧
      ∀ entry ∈ w.served, Established tls cfg w.attempts entry := by
  have hinit : Recorded tls cfg (World.init : World Cert σ) :=
    ⟨rfl, nofun, rfl, nofun⟩
  have hrecorded := invariant_of_run (fun _ _ _ => recorded_step) hinit hrun
  exact ⟨hrecorded.starts, hrecorded.served⟩

namespace Sample

def tls : Tls Unit where
  fromCertDer _ := ⟨List.replicate 32 7, rfl⟩
  webpki _ _ := false
  serverName _ := true

/-- A pinned server without a chain of trust, reached over STARTTLS. -/
def cfg : ConnectionConfig where
  account := some "work"
  host := "imap.example.test"
  port := 143
  encryption := .starttls
  username := "alice"
  pinnedFingerprint := some ⟨List.replicate 32 7, rfl⟩

def listing (caps : List String) : Completion :=
  ⟨.ok (), [.other (.capabilities (.imap4rev1 :: caps.map MailStore.Capability.atom))]⟩

def peer : Peer Unit String where
  tlsConfig := true
  tcp := .answer (.ok ())
  plainGreeting := .answer (.ok (some (.data .ok)))
  plainCapability := .answer (listing ["starttls", "LOGINDISABLED"])
  starttls := .answer (.ok ())
  certificate := .answer (some ())
  handshakeEnd := .answer true
  greeting := .cut
  capability := .answer (listing ["MOVE"])
  resolution := .answer (.ok ("secret", .keyring))
  login := .answer (.ok ())
  probe := .answer (some [.imap4rev1, .atom "MOVE"])

def labels : List (Label Unit String) :=
  [.call (.enter (.status "INBOX")), .call .acquire, .connect peer (.refused "disk full"),
    .call (.enter (.status "INBOX")), .call .acquire, .connect peer .accepted]

end Sample

/-- The login whose record is refused serves no command, the next one does. -/
theorem served_sessions_recorded_sample :
    ∃ w, run (step Sample.tls Sample.cfg) World.init Sample.labels = some w ∧
      w.attempts.length = 2 ∧ w.served.length = 1 ∧
      ∀ entry ∈ w.served, Established Sample.tls Sample.cfg w.attempts entry := by
  have hrun : (run (step Sample.tls Sample.cfg) World.init Sample.labels).map
      (fun w => (w.attempts.length, w.served.length)) = some (2, 1) := by
    decide +kernel
  obtain ⟨w, hw, hlengths⟩ := Option.map_eq_some_iff.mp hrun
  simp only [Prod.mk.injEq] at hlengths
  exact ⟨w, hw, hlengths.1, hlengths.2,
    (served_sessions_recorded Sample.tls Sample.cfg Sample.labels hw).2⟩

end RustyImap.AuthTrail
