import Mathlib
import RustyImap.AuditRecord
import RustyImap.ConfigValidate
import RustyImap.EventHistory
import RustyImap.MailStore

/-!
# One connect attempt

`connect_with_bundle` and `starttls_negotiate` (`rimap-imap/src/connection/handshake.rs`),
`imap_login` (`connection/login.rs`), the verifiers of `tls.rs`, the records of
`auth.rs` and `connect_inner` with its `AuthEmitGuard` (`connection/mod.rs`).

An attempt runs over what each of its awaits brings (`Peer`): an answer, the end
of the time left for the step, or the end of the future.  The verifier's slot and
`ConnectProgress` are set once.  Beside them the state has the history of the
attempt: what was sent on which channel, which certificate was presented, which
capabilities were listed, what the credential resolver gave.  A channel is none for
plain TCP and the certificate of the peer for TLS.

The certificate is any type; its digest, the verdict of webpki and the syntax of
server names are parameters.  Each attempt has a TLS configuration of its own, so
no session is resumed and every handshake that succeeds has checked a certificate.
-/

set_option mvcgen.warning false

namespace RustyImap.ConnectProtocol

open Std.Do
open RustyImap.EventHistory
open RustyImap.ImapOps (AsyncImapError IoErrorKind ServerCapabilities eqIgnoreAsciiCase)
open RustyImap.MailStore (Capability advertises readCapabilities)
open RustyImap.Config (TlsFingerprint ImapEncryption CredentialSource hexByte)
open RustyImap.Record (AuthEvent AuthResult)

/-! ## Errors -/

inductive StarttlsRefusal where
  | no
  | bad
deriving DecidableEq, Repr

inductive StarttlsFailure where
  | capabilityMissing
  | serverRefused (taggedStatus : StarttlsRefusal)
  | unexpectedBye
  | unexpectedPreauth
deriving DecidableEq, Repr

inductive AuthFailure where
  | loginRejected
  | capabilityMissing (needed : String)
  | serverRejected
  | credentialUnavailable (reason : String)
deriving DecidableEq, Repr

/-- The `ImapError`s that a connect can end with. -/
inductive ImapError where
  | tls (observed expected : TlsFingerprint)
  | tlsHandshake
  | starttls (reason : StarttlsFailure)
  | connect (error : IoErrorKind)
  | timeout (op : String)
  | auth (reason : AuthFailure)
  | protocol (error : AsyncImapError)
  | audit (op message : String)
deriving DecidableEq

def ImapError.code : ImapError → ErrorCode
  | .tls _ _ | .tlsHandshake | .starttls _ => .tls
  | .connect _ => .connectionLost
  | .timeout _ => .timeout
  | .auth _ => .auth
  | .protocol _ => .imapProtocol
  | .audit _ _ => .internal

/-! ## The two ends -/

/-- How an await goes. -/
inductive Await (α : Type) where
  | answer (value : α)
  | elapsed       -- the time left for the step
  | cut           -- the future is dropped, or a panic unwinds through it

inductive Status where
  | ok
  | no
  | bad
  | preAuth
  | bye
deriving DecidableEq, Repr

/-- What the connect tells apart in a parsed response. -/
inductive Response where
  | data (status : Status)
  | capabilities (caps : List Capability)
  | other
deriving DecidableEq, Repr

inductive UnsolicitedResponse where
  | other (response : Response)
  | mailbox
deriving DecidableEq, Repr

/-- What async-imap makes of a command: its result and the channel of the untagged
    responses. -/
structure Completion where
  result : Except AsyncImapError Unit
  rx : List UnsolicitedResponse

/-- One attempt, seen from the awaits of the connect. -/
structure Peer (Cert σ : Type) where
  tlsConfig : Bool                      -- rustls builds a configuration
  tcp : Await (Except IoErrorKind Unit)
  plainGreeting : Await (Except IoErrorKind (Option Response))
  plainCapability : Await Completion
  starttls : Await (Except AsyncImapError Unit)
  certificate : Await (Option Cert)     -- none: the handshake failed before there was one
  handshakeEnd : Await Bool             -- after the verifier has spoken
  greeting : Await (Except IoErrorKind (Option Response))
  capability : Await Completion
  resolution : Await (Except String (σ × CredentialSource))
  login : Await (Except AsyncImapError Unit)
  probe : Await (Option (List Capability))

/-- What rustls and its webpki verifier are asked. -/
structure Tls (Cert : Type) where
  fromCertDer : Cert → TlsFingerprint
  webpki : String → Cert → Bool         -- for a server name
  serverName : String → Bool

structure ConnectionConfig where
  account : Option String
  host : String
  port : UInt16
  encryption : ImapEncryption
  username : String
  pinnedFingerprint : Option TlsFingerprint

/-! ## What is observed -/

inductive ClientCommand (σ : Type) where
  | capability
  | starttls
  | login (username : String) (password : σ)

inductive Event (Cert σ : Type) where
  | presented (cert : Cert)
  | sent (channel : Option Cert) (command : ClientCommand σ)
  | listed (channel : Option Cert) (rx : List UnsolicitedResponse)
  | resolved (password : σ) (source : CredentialSource)
  | loggedIn (cert : Cert)

/-- `last_observed` of the bundle, `ConnectProgress`, and the history. -/
structure Progress (Cert σ : Type) where
  lastObserved : Option TlsFingerprint := none
  credentialSource : Option CredentialSource := none
  history : List (Event Cert σ) := []

/-- `OnceLock::set`, whose result is ignored. -/
def onceSet {α : Type} (slot : Option α) (value : α) : Option α := slot.or (some value)

/-- How an attempt stops short. -/
inductive Stop where
  | failed (error : ImapError)
  | dropped

abbrev Connect (Cert σ : Type) := ExceptT Stop (StateM (Progress Cert σ))

section Steps

variable {Cert σ α : Type}

/-- An await inside of `timeout(remaining, step)`, where `op` names the step. -/
def await (op : String) : Await α → Connect Cert σ α
  | .answer a => pure a
  | .elapsed => throw (.failed (.timeout op))
  | .cut => throw .dropped

def fail (e : ImapError) : Connect Cert σ α := throw (.failed e)

def note (event : Event Cert σ) : Connect Cert σ Unit :=
  modify fun p => { p with history := p.history ++ [event] }

end Steps

/-! ## Capabilities -/

/-- `capability_advertised`, on the drained channel. -/
def capabilityAdvertised (rx : List UnsolicitedResponse) (atom : String) : Bool :=
  rx.any fun item =>
    match item with
    | .other (.capabilities caps) => advertises caps atom
    | _ => false

def drainForLogindisabled (rx : List UnsolicitedResponse) : Bool :=
  capabilityAdvertised rx "LOGINDISABLED"

def drainForStarttls (rx : List UnsolicitedResponse) : Bool := capabilityAdvertised rx "STARTTLS"

/-! ## The steps of a connect -/

section Attempt

variable {Cert σ : Type} (tls : Tls Cert) (cfg : ConnectionConfig) (peer : Peer Cert σ)

inductive Verifier where
  | pinning (pinned : TlsFingerprint)
  | capturing
deriving DecidableEq

/-- `build_tls_config`: with a pin, no chain is validated. -/
def buildTlsConfig : Except ImapError Verifier :=
  if !peer.tlsConfig then .error .tlsHandshake
  else
    match cfg.pinnedFingerprint with
    | some pin => .ok (.pinning pin)
    | none => .ok .capturing

def Verifier.accepts (cert : Cert) : Verifier → Bool
  | .pinning pinned => pinned == tls.fromCertDer cert
  | .capturing => tls.webpki cfg.host cert

/-- `verify_server_cert` of both verifiers, on a certificate that is presented. -/
def verifyServerCert (verifier : Verifier) (cert : Cert) : Connect Cert σ Bool := do
  modify fun p => { p with
    lastObserved := onceSet p.lastObserved (tls.fromCertDer cert)
    history := p.history ++ [.presented cert] }
  return verifier.accepts tls cfg cert

def tlsHandshake (op : String) (verifier : Verifier) : Connect Cert σ Cert := do
  if !tls.serverName cfg.host then fail (.connect .other)
  match ← await op peer.certificate with
  | none => fail .tlsHandshake
  | some cert =>
      let accepted ← verifyServerCert tls cfg verifier cert
      let finished ← await op peer.handshakeEnd
      if accepted && finished then return cert
      fail .tlsHandshake

/-- The plaintext client is dropped with whatever it has buffered. -/
def starttlsNegotiate (op : String) : Connect Cert σ Unit := do
  match ← await op peer.plainGreeting with
  | .error _ => fail (.connect .other)
  | .ok none | .ok (some (.data .bye)) => fail (.starttls .unexpectedBye)
  | .ok (some (.data .preAuth)) => fail (.starttls .unexpectedPreauth)
  | .ok (some _) => pure ()
  note (.sent none .capability)
  let listing ← await op peer.plainCapability
  note (.listed none listing.rx)
  if let .error e := listing.result then fail (.protocol e)
  if !drainForStarttls listing.rx then fail (.starttls .capabilityMissing)
  note (.sent none .starttls)
  match ← await op peer.starttls with
  | .ok () => pure ()
  | .error (.no _) => fail (.starttls (.serverRefused .no))
  | .error (.bad _) => fail (.starttls (.serverRefused .bad))
  | .error other => fail (.protocol other)

def starttlsUpgrade (op : String) (verifier : Verifier) : Connect Cert σ Cert := do
  starttlsNegotiate peer op
  tlsHandshake tls cfg peer op verifier

/-- A session and what it advertised at login. -/
structure SessionEntry (Cert : Type) where
  channel : Cert
  capabilities : ServerCapabilities

/-- The greeting of `imap_login`; unlike STARTTLS it takes a PREAUTH. -/
def readGreeting (op : String) : Connect Cert σ Unit := do
  match ← await op peer.greeting with
  | .error e => fail (.connect e)
  | .ok none | .ok (some (.data .bye)) => fail (.auth .serverRejected)
  | .ok (some _) => pure ()

/-- `record_credential_source`, on what the resolver has given. -/
def recordCredentialSource (password : σ) (source : CredentialSource) : Connect Cert σ Unit :=
  modify fun p => { p with
    credentialSource := onceSet p.credentialSource source
    history := p.history ++ [.resolved password source] }

def imapLogin (op : String) (channel : Cert) (alreadyGreeted : Bool) :
    Connect Cert σ (SessionEntry Cert) := do
  if !alreadyGreeted then readGreeting peer op
  note (.sent (some channel) .capability)
  let listing ← await op peer.capability
  note (.listed (some channel) listing.rx)
  if let .error e := listing.result then fail (.protocol e)
  if drainForLogindisabled listing.rx then fail (.auth (.capabilityMissing "LOGIN"))
  match ← await op peer.resolution with
  | .error reason => fail (.auth (.credentialUnavailable reason))
  | .ok (password, source) =>
      recordCredentialSource password source
      note (.sent (some channel) (.login cfg.username password))
      match ← await op peer.login with
      | .error (.no _) => fail (.auth .loginRejected)
      | .error other => fail (.protocol other)
      | .ok () =>
          note (.loggedIn channel)
          let caps ← await op peer.probe
          return ⟨channel, readCapabilities caps⟩

def connectWithBundle (verifier : Verifier) : Connect Cert σ (SessionEntry Cert) := do
  match ← await "tcp_connect" peer.tcp with
  | .error e => fail (.connect e)
  | .ok () => pure ()
  match cfg.encryption with
  | .tls =>
      let channel ← tlsHandshake tls cfg peer "tls_handshake" verifier
      imapLogin cfg peer "imap_login" channel false
  | .starttls =>
      let channel ← starttlsUpgrade tls cfg peer "starttls_upgrade" verifier
      imapLogin cfg peer "imap_login" channel true

/-! ## What a history may hold -/

/-- Said before there is a certificate. -/
def Event.isPlain : Event Cert σ → Bool
  | .sent none _ | .listed none _ => true
  | _ => false

def Event.isResolved : Event Cert σ → Bool
  | .resolved _ _ => true
  | _ => false

def Event.isLogin : Event Cert σ → Bool
  | .sent _ (.login _ _) => true
  | _ => false

/-- The peer of a channel has shown a certificate that the verifier takes. -/
structure Trusted (verifier : Verifier) (before : List (Event Cert σ)) (cert : Cert) : Prop where
  presented : .presented cert ∈ before
  accepted : verifier.accepts tls cfg cert = true

/-- What may come after which history. -/
def Allowed (verifier : Verifier) (before : List (Event Cert σ)) : Event Cert σ → Prop
  | .presented _ => ∀ e ∈ before, e.isPlain = true
  | .sent none command =>
      cfg.encryption = .starttls ∧ (command = .capability ∨ command = .starttls) ∧
        ∀ e ∈ before, e.isPlain = true
  | .listed none _ => cfg.encryption = .starttls ∧ ∀ e ∈ before, e.isPlain = true
  | .sent (some cert) .capability => Trusted tls cfg verifier before cert
  | .sent (some _) .starttls => False
  | .listed (some cert) _ => Trusted tls cfg verifier before cert
  | .resolved _ _ =>
      (∃ cert rx, .listed (some cert) rx ∈ before ∧ drainForLogindisabled rx = false ∧
        Trusted tls cfg verifier before cert) ∧
        ∀ e ∈ before, e.isResolved = false
  | .sent (some cert) (.login username password) =>
      username = cfg.username ∧ (∃ source, .resolved password source ∈ before) ∧
        Trusted tls cfg verifier before cert ∧ ∀ e ∈ before, e.isLogin = false
  | .loggedIn cert =>
      Trusted tls cfg verifier before cert ∧
        ∃ username password, .sent (some cert) (.login username password) ∈ before

def Event.fingerprint? : Event Cert σ → Option TlsFingerprint
  | .presented cert => some (tls.fromCertDer cert)
  | _ => none

def Event.source? : Event Cert σ → Option CredentialSource
  | .resolved _ source => some source
  | _ => none

/-- The history is in order, and the two slots say what has happened. -/
structure Sound (verifier : Verifier) (p : Progress Cert σ) : Prop where
  licensed : Licensed (Allowed tls cfg verifier) p.history
  observed : p.lastObserved = p.history.findSome? (Event.fingerprint? tls)
  source : p.credentialSource = p.history.findSome? Event.source?

variable {tls cfg peer}

theorem sound_empty {verifier : Verifier} :
    Sound tls cfg verifier ({} : Progress Cert σ) :=
  ⟨licensed_nil, rfl, rfl⟩

/-- The state after an event, with the slots as the event leaves them. -/
theorem Sound.append {verifier : Verifier} {p : Progress Cert σ} (h : Sound tls cfg verifier p)
    {event : Event Cert σ} (hok : Allowed tls cfg verifier p.history event)
    {observed : Option TlsFingerprint} {source : Option CredentialSource}
    (hobserved : observed = p.lastObserved.or (event.fingerprint? tls))
    (hsource : source = p.credentialSource.or event.source?) :
    Sound tls cfg verifier ⟨observed, source, p.history ++ [event]⟩ where
  licensed := licensed_append_singleton.mpr ⟨h.licensed, hok⟩
  observed := by rw [findSome?_append_singleton, ← h.observed, hobserved]
  source := by rw [findSome?_append_singleton, ← h.source, hsource]

/-! ## The phases of an attempt -/

/-- Nothing has been said that needs a certificate. -/
structure PlainPhase (tls : Tls Cert) (cfg : ConnectionConfig) (verifier : Verifier)
    (p : Progress Cert σ) : Prop where
  sound : Sound tls cfg verifier p
  plain : ∀ e ∈ p.history, e.isPlain = true

/-- The peer has shown its only certificate, and no password is known. -/
structure PresentedPhase (tls : Tls Cert) (cfg : ConnectionConfig) (verifier : Verifier)
    (cert : Cert) (p : Progress Cert σ) : Prop where
  sound : Sound tls cfg verifier p
  presented : .presented cert ∈ p.history
  unique : ∀ c, .presented c ∈ p.history → c = cert
  unresolved : ∀ e ∈ p.history, e.isResolved = false

structure SecurePhase (tls : Tls Cert) (cfg : ConnectionConfig) (verifier : Verifier)
    (cert : Cert) (p : Progress Cert σ) : Prop extends
    PresentedPhase tls cfg verifier cert p where
  accepted : verifier.accepts tls cfg cert = true

structure ListedPhase (tls : Tls Cert) (cfg : ConnectionConfig) (verifier : Verifier)
    (cert : Cert) (rx : List UnsolicitedResponse) (p : Progress Cert σ) : Prop extends
    SecurePhase tls cfg verifier cert p where
  listed : .listed (some cert) rx ∈ p.history

/-- The password is known; it may have been sent. -/
structure ResolvedPhase (tls : Tls Cert) (cfg : ConnectionConfig) (verifier : Verifier)
    (cert : Cert) (p : Progress Cert σ) : Prop where
  sound : Sound tls cfg verifier p
  trusted : Trusted tls cfg verifier p.history cert
  unique : ∀ c, .presented c ∈ p.history → c = cert

structure KnownPhase (tls : Tls Cert) (cfg : ConnectionConfig) (verifier : Verifier)
    (cert : Cert) (password : σ) (p : Progress Cert σ) : Prop extends
    ResolvedPhase tls cfg verifier cert p where
  known : ∃ source, .resolved password source ∈ p.history
  noLogin : ∀ e ∈ p.history, e.isLogin = false

structure SentPhase (tls : Tls Cert) (cfg : ConnectionConfig) (verifier : Verifier)
    (cert : Cert) (p : Progress Cert σ) : Prop extends
    ResolvedPhase tls cfg verifier cert p where
  sent : ∃ username password, .sent (some cert) (.login username password) ∈ p.history

structure SessionPhase (tls : Tls Cert) (cfg : ConnectionConfig) (verifier : Verifier)
    (cert : Cert) (p : Progress Cert σ) : Prop extends
    ResolvedPhase tls cfg verifier cert p where
  loggedIn : .loggedIn cert ∈ p.history

/-- How an attempt that stops short may stop: a certificate that was refused shows. -/
structure Stopped (tls : Tls Cert) (cfg : ConnectionConfig) (verifier : Verifier) (stop : Stop)
    (p : Progress Cert σ) : Prop where
  sound : Sound tls cfg verifier p
  refused : ∀ c, .presented c ∈ p.history → verifier.accepts tls cfg c = false →
    stop = .failed .tlsHandshake ∨ (∃ op, stop = .failed (.timeout op)) ∨ stop = .dropped

theorem SecurePhase.trusted {verifier : Verifier} {cert : Cert} {p : Progress Cert σ}
    (h : SecurePhase tls cfg verifier cert p) : Trusted tls cfg verifier p.history cert :=
  ⟨h.presented, h.accepted⟩

theorem PlainPhase.stopped {verifier : Verifier} {stop : Stop} {p : Progress Cert σ}
    (h : PlainPhase tls cfg verifier p) : Stopped tls cfg verifier stop p where
  sound := h.sound
  refused := by
    intro c hc _
    exact absurd (h.plain _ hc) (by simp [Event.isPlain])

theorem ResolvedPhase.stopped {verifier : Verifier} {cert : Cert} {stop : Stop}
    {p : Progress Cert σ} (h : ResolvedPhase tls cfg verifier cert p) :
    Stopped tls cfg verifier stop p where
  sound := h.sound
  refused := by
    intro c hc hrefused
    rw [h.unique c hc, h.trusted.accepted] at hrefused
    cases hrefused

theorem SecurePhase.toResolved {verifier : Verifier} {cert : Cert} {p : Progress Cert σ}
    (h : SecurePhase tls cfg verifier cert p) : ResolvedPhase tls cfg verifier cert p :=
  ⟨h.sound, h.trusted, h.unique⟩

theorem PresentedPhase.stopped {verifier : Verifier} {cert : Cert} {stop : Stop}
    {p : Progress Cert σ} (h : PresentedPhase tls cfg verifier cert p)
    (hstop : stop = .failed .tlsHandshake ∨ (∃ op, stop = .failed (.timeout op)) ∨
      stop = .dropped) : Stopped tls cfg verifier stop p where
  sound := h.sound
  refused _ _ _ := hstop

/-! ### How events move the phases -/

theorem PlainPhase.append {verifier : Verifier} {p : Progress Cert σ}
    (h : PlainPhase tls cfg verifier p) (hmode : cfg.encryption = .starttls)
    {event : Event Cert σ}
    (hevent : event = .sent none .capability ∨ event = .sent none .starttls ∨
      ∃ rx, event = .listed none rx) :
    PlainPhase tls cfg verifier { p with history := p.history ++ [event] } := by
  have hplain : event.isPlain = true := by
    rcases hevent with rfl | rfl | ⟨rx, rfl⟩ <;> rfl
  constructor
  · apply h.sound.append
    · rcases hevent with rfl | rfl | ⟨rx, rfl⟩
      · exact ⟨hmode, .inl rfl, h.plain⟩
      · exact ⟨hmode, .inr rfl, h.plain⟩
      · exact ⟨hmode, h.plain⟩
    · rcases hevent with rfl | rfl | ⟨rx, rfl⟩ <;> simp [Event.fingerprint?]
    · rcases hevent with rfl | rfl | ⟨rx, rfl⟩ <;> simp [Event.source?]
  · simpa [or_imp, forall_and, hplain] using h.plain

/-- The verifier fills its slot as the certificate is presented. -/
theorem PlainPhase.present {verifier : Verifier} {p : Progress Cert σ}
    (h : PlainPhase tls cfg verifier p) (cert : Cert) :
    PresentedPhase tls cfg verifier cert
      ⟨onceSet p.lastObserved (tls.fromCertDer cert), p.credentialSource,
        p.history ++ [.presented cert]⟩ where
  sound := by
    refine @Sound.append _ _ _ _ _ _ h.sound (.presented cert) h.plain _ _ rfl ?_
    simp [Event.source?]
  presented := by simp
  unique := by
    intro c hc
    rcases List.mem_append.mp hc with hold | hnew
    · exact absurd (h.plain _ hold) (by simp [Event.isPlain])
    · simpa using hnew
  unresolved := by
    intro e he
    rcases List.mem_append.mp he with hold | hnew
    · have hplain := h.plain e hold
      rcases e with _ | _ | _ | _ | _
      case resolved => exact absurd hplain (by simp [Event.isPlain])
      all_goals rfl
    · rw [List.mem_singleton.mp hnew]
      rfl

/-- A password is sent only when it is known. -/
theorem noLogin_of_unresolved {verifier : Verifier} {history : List (Event Cert σ)}
    (hlic : Licensed (Allowed tls cfg verifier) history)
    (hunresolved : ∀ e ∈ history, e.isResolved = false) : ∀ e ∈ history, e.isLogin = false := by
  intro e he
  by_contra hlogin
  obtain ⟨before, after, rfl, hok⟩ := hlic.exists_before he
  rcases e with _ | ⟨channel, command⟩ | _ | _ | _ <;>
    try exact hlogin rfl
  rcases command with _ | _ | ⟨username, password⟩
  · exact hlogin rfl
  · exact hlogin rfl
  · rcases channel with _ | cert
    · rcases hok.2.1 with h | h <;> cases h
    · obtain ⟨source, hsource⟩ := hok.2.1
      have hfalse := hunresolved (.resolved password source) (by simp [hsource])
      simp [Event.isResolved] at hfalse

theorem SecurePhase.append {verifier : Verifier} {cert : Cert} {p : Progress Cert σ}
    (h : SecurePhase tls cfg verifier cert p) {event : Event Cert σ}
    (hevent : event = .sent (some cert) .capability ∨ ∃ rx, event = .listed (some cert) rx) :
    SecurePhase tls cfg verifier cert { p with history := p.history ++ [event] } := by
  have hlater : event.fingerprint? tls = none ∧ event.source? = none ∧ event.isResolved = false ∧
      (∀ c, event ≠ .presented c) ∧ Allowed tls cfg verifier p.history event := by
    rcases hevent with rfl | ⟨rx, rfl⟩
    · exact ⟨rfl, rfl, rfl, nofun, h.trusted⟩
    · exact ⟨rfl, rfl, rfl, nofun, h.trusted⟩
  obtain ⟨hfingerprint, hsource, hresolved, hpresented, hok⟩ := hlater
  refine ⟨⟨?_, ?_, ?_, ?_⟩, h.accepted⟩
  · exact h.sound.append hok (by simp [hfingerprint]) (by simp [hsource])
  · exact List.mem_append_left _ h.presented
  · intro c hc
    rcases List.mem_append.mp hc with hold | hnew
    · exact h.unique c hold
    · exact absurd (List.mem_singleton.mp hnew).symm (hpresented c)
  · intro e he
    rcases List.mem_append.mp he with hold | hnew
    · exact h.unresolved e hold
    · rw [List.mem_singleton.mp hnew, hresolved]

theorem SecurePhase.list {verifier : Verifier} {cert : Cert} {p : Progress Cert σ}
    (h : SecurePhase tls cfg verifier cert p) (rx : List UnsolicitedResponse) :
    ListedPhase tls cfg verifier cert rx
      { p with history := p.history ++ [.listed (some cert) rx] } :=
  ⟨h.append (.inr ⟨rx, rfl⟩), by simp⟩

/-- An event on the way from a known password to a session. -/
theorem ResolvedPhase.append {verifier : Verifier} {cert : Cert} {p : Progress Cert σ}
    (h : ResolvedPhase tls cfg verifier cert p) {event : Event Cert σ}
    (hok : Allowed tls cfg verifier p.history event) (hfingerprint : event.fingerprint? tls = none)
    (hsource : event.source? = none) :
    ResolvedPhase tls cfg verifier cert { p with history := p.history ++ [event] } := by
  refine ⟨?_, ⟨List.mem_append_left _ h.trusted.presented, h.trusted.accepted⟩, ?_⟩
  · exact h.sound.append hok (by simp [hfingerprint]) (by simp [hsource])
  · intro c hc
    rcases List.mem_append.mp hc with hold | hnew
    · exact h.unique c hold
    · rw [← List.mem_singleton.mp hnew] at hfingerprint
      cases hfingerprint

theorem ListedPhase.resolve {verifier : Verifier} {cert : Cert} {rx : List UnsolicitedResponse}
    {p : Progress Cert σ} (h : ListedPhase tls cfg verifier cert rx p)
    (henabled : drainForLogindisabled rx = false) (password : σ) (source : CredentialSource) :
    KnownPhase tls cfg verifier cert password
      ⟨p.lastObserved, onceSet p.credentialSource source,
        p.history ++ [.resolved password source]⟩ := by
  have hok : Allowed tls cfg verifier p.history (.resolved password source) :=
    ⟨⟨cert, rx, h.listed, henabled, h.trusted⟩, h.unresolved⟩
  refine ⟨⟨?_, ?_, ?_⟩, ⟨source, by simp⟩, ?_⟩
  · exact h.sound.append hok (by simp [Event.fingerprint?]) rfl
  · exact ⟨List.mem_append_left _ h.presented, h.accepted⟩
  · intro c hc
    exact h.unique c (by simpa using hc)
  · intro e he
    rcases List.mem_append.mp he with hold | hnew
    · exact noLogin_of_unresolved h.sound.licensed h.unresolved e hold
    · rw [List.mem_singleton.mp hnew]
      rfl

theorem KnownPhase.send {verifier : Verifier} {cert : Cert} {password : σ} {p : Progress Cert σ}
    (h : KnownPhase tls cfg verifier cert password p) :
    SentPhase tls cfg verifier cert
      { p with history := p.history ++ [.sent (some cert) (.login cfg.username password)] } :=
  ⟨h.toResolvedPhase.append ⟨rfl, h.known, h.trusted, h.noLogin⟩ rfl rfl,
    cfg.username, password, by simp⟩

theorem SentPhase.logIn {verifier : Verifier} {cert : Cert} {p : Progress Cert σ}
    (h : SentPhase tls cfg verifier cert p) :
    SessionPhase tls cfg verifier cert { p with history := p.history ++ [.loggedIn cert] } :=
  ⟨h.toResolvedPhase.append ⟨h.trusted, h.sent⟩ rfl rfl, by simp⟩

/-! ### The functions -/

/-- A note moves to the phase that the event leads to. -/
theorem note_spec {P Q : Progress Cert σ → Prop} {event : Event Cert σ}
    (h : ∀ p, P p → Q { p with history := p.history ++ [event] }) :
    ⦃fun p => ⌜P p⌝⦄ note event ⦃post⟨fun _ p => ⌜Q p⌝, fun _ _ => ⌜False⌝⟩⦄ := by
  mvcgen [note]
  rename_i hP _
  exact h _ hP

theorem starttlsNegotiate_spec (verifier : Verifier) (op : String)
    (hmode : cfg.encryption = .starttls) :
    ⦃fun p => ⌜PlainPhase tls cfg verifier p⌝⦄ starttlsNegotiate peer op
    ⦃post⟨fun _ p => ⌜PlainPhase tls cfg verifier p⌝,
      fun stop p => ⌜Stopped tls cfg verifier stop p⌝⟩⦄ := by
  have hplain := fun (event : Event Cert σ) hevent =>
    note_spec fun p (h : PlainPhase tls cfg verifier p) =>
      @PlainPhase.append _ _ _ _ _ _ h hmode event hevent
  have hcapability := hplain (.sent none .capability) (.inl rfl)
  have hstarttls := hplain (.sent none .starttls) (.inr (.inl rfl))
  have hlisted := fun rx => hplain (.listed none rx) (.inr (.inr ⟨rx, rfl⟩))
  mvcgen [starttlsNegotiate, await, fail, hcapability, hstarttls, hlisted]
  all_goals exact PlainPhase.stopped (by assumption)

theorem verifyServerCert_spec (verifier : Verifier) (cert : Cert) :
    ⦃fun p => ⌜PlainPhase tls cfg verifier p⌝⦄ verifyServerCert tls cfg verifier cert
    ⦃post⟨fun accepted (p : Progress Cert σ) =>
        ⌜accepted = verifier.accepts tls cfg cert ∧ PresentedPhase tls cfg verifier cert p⌝,
      fun _ _ => ⌜False⌝⟩⦄ := by
  mvcgen [verifyServerCert]
  rename_i h _
  simpa using h.present cert

theorem tlsHandshake_spec (verifier : Verifier) (op : String) :
    ⦃fun p => ⌜PlainPhase tls cfg verifier p⌝⦄ tlsHandshake tls cfg peer op verifier
    ⦃post⟨fun cert (p : Progress Cert σ) => ⌜SecurePhase tls cfg verifier cert p⌝,
      fun stop p => ⌜Stopped tls cfg verifier stop p⌝⟩⦄ := by
  have hverify := fun cert => @verifyServerCert_spec Cert σ tls cfg verifier cert
  mvcgen [tlsHandshake, await, fail, hverify]
  -- no server name, or no certificate
  · exact PlainPhase.stopped (by assumption)
  · exact PlainPhase.stopped (by assumption)
  · rename_i hverified _ _ hboth
    rw [Bool.and_eq_true, hverified.1] at hboth
    exact ⟨hverified.2, hboth.1⟩
  -- from here on a certificate has been presented
  · rename_i hverified _ _ _
    exact hverified.2.stopped (.inl rfl)
  · rename_i hverified _
    exact hverified.2.stopped (.inr (.inl ⟨op, rfl⟩))
  · rename_i hverified _
    exact hverified.2.stopped (.inr (.inr rfl))
  · exact PlainPhase.stopped (by assumption)
  · exact PlainPhase.stopped (by assumption)

theorem starttlsUpgrade_spec (verifier : Verifier) (op : String)
    (hmode : cfg.encryption = .starttls) :
    ⦃fun p => ⌜PlainPhase tls cfg verifier p⌝⦄ starttlsUpgrade tls cfg peer op verifier
    ⦃post⟨fun cert (p : Progress Cert σ) => ⌜SecurePhase tls cfg verifier cert p⌝,
      fun stop p => ⌜Stopped tls cfg verifier stop p⌝⟩⦄ := by
  have hnegotiate := @starttlsNegotiate_spec Cert σ tls cfg peer verifier op hmode
  have hhandshake := @tlsHandshake_spec Cert σ tls cfg peer verifier op
  mvcgen [starttlsUpgrade, hnegotiate, hhandshake]

theorem readGreeting_spec (verifier : Verifier) (cert : Cert) (op : String) :
    ⦃fun p => ⌜SecurePhase tls cfg verifier cert p⌝⦄ readGreeting peer op
    ⦃post⟨fun _ p => ⌜SecurePhase tls cfg verifier cert p⌝,
      fun stop p => ⌜Stopped tls cfg verifier stop p⌝⟩⦄ := by
  mvcgen [readGreeting, await, fail]
  all_goals exact (SecurePhase.toResolved (by assumption)).stopped

theorem recordCredentialSource_spec (verifier : Verifier) (cert : Cert)
    (rx : List UnsolicitedResponse) (password : σ) (source : CredentialSource)
    (henabled : drainForLogindisabled rx = false) :
    ⦃fun p => ⌜ListedPhase tls cfg verifier cert rx p⌝⦄
    recordCredentialSource password source
    ⦃post⟨fun _ p => ⌜KnownPhase tls cfg verifier cert password p⌝, fun _ _ => ⌜False⌝⟩⦄ := by
  mvcgen [recordCredentialSource]
  rename_i h _
  exact h.resolve henabled password source

theorem imapLogin_spec (verifier : Verifier) (cert : Cert) (op : String) (alreadyGreeted : Bool) :
    ⦃fun p => ⌜SecurePhase tls cfg verifier cert p⌝⦄ imapLogin cfg peer op cert alreadyGreeted
    ⦃post⟨fun entry p => ⌜entry.channel = cert ∧ SessionPhase tls cfg verifier cert p⌝,
      fun stop p => ⌜Stopped tls cfg verifier stop p⌝⟩⦄ := by
  have hgreeting := @readGreeting_spec Cert σ tls cfg peer verifier cert op
  have hcapability := note_spec fun (p : Progress Cert σ)
    (h : SecurePhase tls cfg verifier cert p) => h.append (.inl rfl)
  have hlisted := fun rx => note_spec fun (p : Progress Cert σ)
    (h : SecurePhase tls cfg verifier cert p) => h.list rx
  have hlogin := fun password => note_spec fun (p : Progress Cert σ)
    (h : KnownPhase tls cfg verifier cert password p) => h.send
  have hloggedIn := note_spec fun (p : Progress Cert σ)
    (h : SentPhase tls cfg verifier cert p) => h.logIn
  have hresolve := @recordCredentialSource_spec Cert σ tls cfg verifier cert
  mvcgen [imapLogin, await, fail, hgreeting, hcapability, hlisted, hlogin, hloggedIn, hresolve]
  -- each stop is left to the phase it happens in
  all_goals first
    | exact (SecurePhase.toResolved (by assumption)).stopped
    | exact (ListedPhase.toSecurePhase (by assumption)).toResolved.stopped
    | exact (SentPhase.toResolvedPhase (by assumption)).stopped
    | exact (SessionPhase.toResolvedPhase (by assumption)).stopped
    | exact ⟨rfl, ‹_›⟩
    | exact Bool.eq_false_of_not_eq_true (by assumption)

theorem connectWithBundle_spec (verifier : Verifier) :
    ⦃fun p => ⌜PlainPhase tls cfg verifier p⌝⦄ connectWithBundle tls cfg peer verifier
    ⦃post⟨fun entry (p : Progress Cert σ) => ⌜SessionPhase tls cfg verifier entry.channel p⌝,
      fun stop p => ⌜Stopped tls cfg verifier stop p⌝⟩⦄ := by
  have hhandshake := fun op =>
    @tlsHandshake_spec Cert σ tls cfg peer verifier op
  have hupgrade := fun op hmode =>
    @starttlsUpgrade_spec Cert σ tls cfg peer verifier op hmode
  have hlogin := fun cert op greeted =>
    @imapLogin_spec Cert σ tls cfg peer verifier cert op greeted
  mvcgen [connectWithBundle, await, fail, hhandshake, hupgrade, hlogin]
  all_goals first
    | exact PlainPhase.stopped (by assumption)
    | (intro hchannel hsession
       rwa [hchannel])

/-! ### Runs -/

/-- What a triple says of a run. -/
theorem ends_of_triple {α : Type} {x : Connect Cert σ α} {P : Progress Cert σ → Prop}
    {Q : α → Progress Cert σ → Prop} {E : Stop → Progress Cert σ → Prop}
    (h : ⦃fun p => ⌜P p⌝⦄ x ⦃post⟨fun a p => ⌜Q a p⌝, fun stop p => ⌜E stop p⌝⟩⦄)
    {p : Progress Cert σ} (hp : P p) :
    match x.run.run p with
    | (.ok a, q) => Q a q
    | (.error stop, q) => E stop q := by
  have hwp := h p hp
  simp only [WP.wp, PredTrans.apply_pushExcept, PredTrans.apply_pushArg] at hwp
  rcases hrun : x.run.run p with ⟨stop | a, q⟩
  · rw [hrun] at hwp
    exact hwp
  · rw [hrun] at hwp
    exact hwp

end Attempt

end RustyImap.ConnectProtocol
