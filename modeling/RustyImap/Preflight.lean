import RustyImap.AuthTrail

/-!
# The probe before a login

`probe_preflight` (`rimap-imap/src/preflight.rs`), which the dry run uses: TCP, TLS, the
greeting and a CAPABILITY, and then the connection is dropped.  It goes through the stages
of `ConnectProtocol` over the same `Peer`, but for a verifier of its own where nothing is
pinned: `CaptureOnlyVerifier` (`rimap-imap/src/tls.rs`) takes every certificate.
-/

set_option mvcgen.warning false

namespace RustyImap.Preflight

open Std.Do
open RustyImap.EventHistory
open RustyImap.ConnectProtocol RustyImap.AuthTrail
open RustyImap.MailStore (Capability)
open RustyImap.Config (TlsFingerprint)

/-! ## The capabilities of a report -/

def spelling : Capability → String
  | .imap4rev1 => "IMAP4REV1"
  | .auth mech => "AUTH=" ++ mech.toUpper
  | .atom name => name.toUpper

/-- `collect_capabilities`, which fills `out`. -/
def collectCapabilities (list : List Capability) (out : List String) : List String :=
  list.foldl (fun out cap =>
    let upper := spelling cap
    if upper ≠ "" ∧ upper ∉ out then out ++ [upper] else out) out

/-- One round of the loop that drains the channel. -/
def drainItem (caps : List String) : UnsolicitedResponse → List String
  | .other (.capabilities list) => collectCapabilities list caps
  | _ => caps

def drainCapabilities (rx : List UnsolicitedResponse) : List String := rx.foldl drainItem []

/-- The listings of a channel. -/
def listings (rx : List UnsolicitedResponse) : List Capability :=
  rx.flatMap fun item =>
    match item with
    | .other (.capabilities list) => list
    | _ => []

/-- One round of the loop of `collect_capabilities`. -/
theorem mem_pushed {upper name : String} {out : List String} :
    name ∈ (if upper ≠ "" ∧ upper ∉ out then out ++ [upper] else out) ↔
      name ∈ out ∨ name ≠ "" ∧ upper = name := by
  split
  · rename_i hnew
    rw [List.mem_append, List.mem_singleton]
    exact or_congr_right ⟨fun h => ⟨h ▸ hnew.1, h.symm⟩, fun h => h.2.symm⟩
  · rename_i hold
    refine ⟨.inl, ?_⟩
    rintro (h | ⟨hne, rfl⟩)
    · exact h
    · exact by_contra fun hout => hold ⟨hne, hout⟩

theorem nodup_collectCapabilities {list : List Capability} {out : List String}
    (h : out.Nodup) : (collectCapabilities list out).Nodup := by
  induction list generalizing out with
  | nil => exact h
  | cons cap list ih =>
      rw [collectCapabilities, List.foldl_cons]
      apply ih
      dsimp only
      split
      · rename_i hnew
        rw [← List.concat_eq_append]
        exact h.concat hnew.2
      · exact h

theorem mem_collectCapabilities {list : List Capability} {out : List String} {name : String} :
    name ∈ collectCapabilities list out ↔
      name ∈ out ∨ name ≠ "" ∧ ∃ cap ∈ list, spelling cap = name := by
  induction list generalizing out with
  | nil => simp [collectCapabilities]
  | cons cap list ih =>
      rw [collectCapabilities, List.foldl_cons]
      refine ih.trans ?_
      dsimp only
      rw [mem_pushed, or_assoc, ← and_or_left]
      simp only [List.mem_cons, exists_eq_or_imp]

theorem foldl_drainItem (rx : List UnsolicitedResponse) (out : List String) :
    rx.foldl drainItem out = collectCapabilities (listings rx) out := by
  induction rx generalizing out with
  | nil => rfl
  | cons item rx ih =>
      rw [List.foldl_cons, ih]
      unfold drainItem
      split
      · rw [collectCapabilities, collectCapabilities, ← List.foldl_append]
        rfl
      · rename_i hother
        rw [listings, listings, List.flatMap_cons]
        split
        · rename_i list
          exact absurd rfl (hother list)
        · rfl

/-- The channel is collected as the one list of all its listings. -/
theorem drainCapabilities_eq (rx : List UnsolicitedResponse) :
    drainCapabilities rx = collectCapabilities (listings rx) [] := foldl_drainItem rx []

/-! ## The probe -/

structure PreflightInfo where
  capabilities : List String
  tlsFingerprint : TlsFingerprint

section

variable {Cert σ α : Type} (tls : Tls Cert) (cfg : ConnectionConfig) (peer : Peer Cert σ)

/-- What rustls asks in a probe: `CaptureOnlyVerifier` asks nothing. -/
def probeTls : Tls Cert :=
  match cfg.pinnedFingerprint with
  | some _ => tls
  | none => { tls with webpki := fun _ _ => true }

/-- `.map_err(enrich)` on a step that makes the channel. -/
def enriched (x : Connect Cert σ α) : Connect Cert σ α :=
  tryCatch x fun stop => do
    match stop with
    | .failed e => fail (enrichTlsHandshakeError e (← get).lastObserved cfg.pinnedFingerprint)
    | .dropped => throw .dropped

/-- Unlike a login, it takes a BYE for a greeting. -/
def readGreeting (op : String) : Connect Cert σ Unit := do
  match ← await op peer.greeting with
  | .error e => fail (.connect e)
  | .ok none => fail (.connect .unexpectedEof)
  | .ok (some _) => pure ()

def listCapabilities (channel : Cert) (alreadyGreeted : Bool) : Connect Cert σ PreflightInfo := do
  if !alreadyGreeted then readGreeting peer "imap_greeting"
  note (.sent (some channel) .capability)
  let listing ← await "imap_capability" peer.capability
  note (.listed (some channel) listing.rx)
  if let .error e := listing.result then fail (.protocol e)
  match (← get).lastObserved with
  | none => fail .tlsHandshake       -- the verifier did not capture a fingerprint
  | some observed => return ⟨drainCapabilities listing.rx, observed⟩

def probe (verifier : Verifier) : Connect Cert σ PreflightInfo := do
  match ← await "tcp_connect" peer.tcp with
  | .error e => fail (.connect e)
  | .ok () => pure ()
  match cfg.encryption with
  | .tls =>
      let channel ←
        enriched cfg (tlsHandshake (probeTls tls cfg) cfg peer "tls_handshake" verifier)
      listCapabilities peer channel false
  | .starttls =>
      let channel ←
        enriched cfg (starttlsUpgrade (probeTls tls cfg) cfg peer "starttls_upgrade" verifier)
      listCapabilities peer channel true

end

structure Probe (Cert σ : Type) where
  outcome : Option (Except ImapError PreflightInfo)     -- none: the future is dropped
  progress : Progress Cert σ

section

variable {Cert σ α : Type}

/-- `probe_preflight`; both builders of a configuration fail alike. -/
def probePreflight (tls : Tls Cert) (cfg : ConnectionConfig) (peer : Peer Cert σ) :
    Probe Cert σ :=
  match buildTlsConfig cfg peer with
  | .error e => ⟨some (.error e), {}⟩
  | .ok verifier =>
      match (probe tls cfg peer verifier).run.run {} with
      | (.error .dropped, progress) => ⟨none, progress⟩
      | (.error (.failed e), progress) => ⟨some (.error e), progress⟩
      | (.ok info, progress) => ⟨some (.ok info), progress⟩

/-! ## What a probe says and hears -/

variable {tls : Tls Cert} {cfg : ConnectionConfig} {peer : Peer Cert σ} {verifier : Verifier}

/-- The rewriting of errors leaves the state of the attempt alone. -/
theorem enriched_spec {P : Progress Cert σ → Prop} {Q : α → Progress Cert σ → Prop}
    {E F : Stop → Progress Cert σ → Prop} {x : Connect Cert σ α}
    (h : ⦃fun p => ⌜P p⌝⦄ x ⦃post⟨fun a p => ⌜Q a p⌝, fun stop p => ⌜E stop p⌝⟩⦄)
    (hdropped : ∀ p, E .dropped p → F .dropped p)
    (hfailed : ∀ e p, E (.failed e) p →
      F (.failed (enrichTlsHandshakeError e p.lastObserved cfg.pinnedFingerprint)) p) :
    ⦃fun p => ⌜P p⌝⦄ enriched cfg x
    ⦃post⟨fun a p => ⌜Q a p⌝, fun stop p => ⌜F stop p⌝⟩⦄ := by
  mvcgen [enriched, fail, h]
  · exact id
  · rename_i hstop
    exact hfailed _ _ hstop
  · rename_i hstop
    exact hdropped _ hstop

/-! ### Nothing of a login -/

/-- What only a login says or asks for. -/
def ofLogin : Event Cert σ → Bool
  | .resolved _ _ | .sent _ (.login _ _) | .loggedIn _ => true
  | _ => false

def Quiet (p : Progress Cert σ) : Prop := ∀ e ∈ p.history, ofLogin e = false

/-- The errors that need no credentials. -/
def isTransport : ImapError → Bool
  | .tlsHandshake | .starttls _ | .connect _ | .timeout _ | .protocol _ => true
  | .tls _ _ | .auth _ | .audit _ _ => false

def Ordinary (stop : Stop) : Prop := ∀ e, stop = .failed e → isTransport e = true

/-- Why a probe stops: a mismatch is one of the pin and the certificate that was shown. -/
def Reason (cfg : ConnectionConfig) (stop : Stop) (p : Progress Cert σ) : Prop :=
  ∀ e, stop = .failed e → isTransport e = true ∨
    ∃ observed expected, e = .tls observed expected ∧ cfg.pinnedFingerprint = some expected ∧
      p.lastObserved = some observed ∧ observed ≠ expected

theorem Quiet.append {p : Progress Cert σ} (h : Quiet p) {event : Event Cert σ}
    (hevent : ofLogin event = false) : Quiet { p with history := p.history ++ [event] } := by
  intro e he
  rcases List.mem_append.mp he with hold | hnew
  · exact h e hold
  · rwa [List.mem_singleton.mp hnew]

theorem ordinary_failed {e : ImapError} (h : isTransport e = true) : Ordinary (.failed e) := by
  rintro _ ⟨rfl⟩
  exact h

theorem ordinary_dropped : Ordinary .dropped := by
  rintro e ⟨⟩

theorem Ordinary.reason {stop : Stop} {p : Progress Cert σ} (h : Ordinary stop) :
    Reason cfg stop p := fun e he => .inl (h e he)

theorem Ordinary.enriched {e : ImapError} {p : Progress Cert σ} (h : Ordinary (.failed e)) :
    Reason cfg (.failed (enrichTlsHandshakeError e p.lastObserved cfg.pinnedFingerprint)) p := by
  rintro _ ⟨rfl⟩
  have htransport := h e rfl
  unfold enrichTlsHandshakeError
  split
  · split
    · rename_i expected observed hpin hobserved
      split
      · rename_i hne
        exact .inr ⟨observed, expected, rfl, hpin, hobserved, hne.symm⟩
      · exact .inl rfl
    · exact .inl rfl
  · exact .inl htransport

theorem note_quiet {event : Event Cert σ} (hevent : ofLogin event = false) :
    ⦃fun p => ⌜Quiet p⌝⦄ note event ⦃post⟨fun _ p => ⌜Quiet p⌝, fun _ _ => ⌜False⌝⟩⦄ :=
  note_spec fun _ h => h.append hevent

theorem tlsHandshake_quiet (op : String) :
    ⦃fun p => ⌜Quiet p⌝⦄ tlsHandshake tls cfg peer op verifier
    ⦃post⟨fun _ (p : Progress Cert σ) => ⌜Quiet p⌝,
      fun stop p => ⌜Quiet p ∧ Ordinary stop⌝⟩⦄ := by
  have hverify : ∀ cert, ⦃fun p => ⌜Quiet p⌝⦄ verifyServerCert tls cfg verifier cert
      ⦃post⟨fun _ (p : Progress Cert σ) => ⌜Quiet p⌝, fun _ _ => ⌜False⌝⟩⦄ := by
    intro cert
    mvcgen [verifyServerCert]
    rename_i h _
    exact h.append rfl
  mvcgen [tlsHandshake, await, fail, hverify]
  all_goals first
    | exact ⟨by assumption, ordinary_failed rfl⟩
    | exact ⟨by assumption, ordinary_dropped⟩

theorem starttlsUpgrade_quiet (op : String) :
    ⦃fun p => ⌜Quiet p⌝⦄ starttlsUpgrade tls cfg peer op verifier
    ⦃post⟨fun _ (p : Progress Cert σ) => ⌜Quiet p⌝,
      fun stop p => ⌜Quiet p ∧ Ordinary stop⌝⟩⦄ := by
  have hcapability := @note_quiet Cert σ (.sent none .capability) rfl
  have hstarttls := @note_quiet Cert σ (.sent none .starttls) rfl
  have hlisted := fun rx => @note_quiet Cert σ (.listed none rx) rfl
  have hhandshake := @tlsHandshake_quiet Cert σ tls cfg peer verifier op
  mvcgen [starttlsUpgrade, starttlsNegotiate, await, fail, hcapability, hstarttls, hlisted,
    hhandshake]
  all_goals first
    | exact ⟨by assumption, ordinary_failed rfl⟩
    | exact ⟨by assumption, ordinary_dropped⟩

theorem listCapabilities_quiet (cert : Cert) (alreadyGreeted : Bool) :
    ⦃fun p => ⌜Quiet p⌝⦄ listCapabilities peer cert alreadyGreeted
    ⦃post⟨fun _ p => ⌜Quiet p⌝, fun stop p => ⌜Quiet p ∧ Ordinary stop⌝⟩⦄ := by
  have hcapability := @note_quiet Cert σ (.sent (some cert) .capability) rfl
  have hlisted := fun rx => @note_quiet Cert σ (.listed (some cert) rx) rfl
  mvcgen [listCapabilities, readGreeting, await, fail, hcapability, hlisted]
  all_goals first
    | exact ⟨by assumption, ordinary_failed rfl⟩
    | exact ⟨by assumption, ordinary_dropped⟩

theorem probe_quiet (verifier : Verifier) :
    ⦃fun p => ⌜Quiet p⌝⦄ probe tls cfg peer verifier
    ⦃post⟨fun _ p => ⌜Quiet p⌝, fun stop p => ⌜Quiet p ∧ Reason cfg stop p⌝⟩⦄ := by
  have henriched := fun (x : Connect Cert σ Cert) h =>
    @enriched_spec Cert σ Cert cfg Quiet (fun _ p => Quiet p)
      (fun stop p => Quiet p ∧ Ordinary stop) (fun stop p => Quiet p ∧ Reason cfg stop p) x h
      (fun p hp => ⟨hp.1, hp.2.reason⟩) (fun e p hp => ⟨hp.1, hp.2.enriched⟩)
  have hhandshake := fun op => henriched _
    (@tlsHandshake_quiet Cert σ (probeTls tls cfg) cfg peer verifier op)
  have hupgrade := fun op => henriched _
    (@starttlsUpgrade_quiet Cert σ (probeTls tls cfg) cfg peer verifier op)
  have hlist := @listCapabilities_quiet Cert σ peer
  mvcgen [probe, await, fail, hhandshake, hupgrade, hlist]
  all_goals first
    | exact ⟨by assumption, (ordinary_failed rfl).reason⟩
    | exact ⟨by assumption, ordinary_dropped.reason⟩
    | exact id
    | exact fun hquiet hstop => ⟨hquiet, hstop.reason⟩

/-! ### What is reported -/

/-- The one certificate that was shown fills the slot. -/
theorem lastObserved_of_presented {cert : Cert} {p : Progress Cert σ}
    (h : PresentedPhase tls cfg verifier cert p) :
    p.lastObserved = some (tls.fromCertDer cert) := by
  rw [h.sound.observed]
  cases hfirst : p.history.findSome? (Event.fingerprint? tls) with
  | none =>
      have hnone := List.findSome?_eq_none_iff.mp hfirst _ h.presented
      cases hnone
  | some fingerprint =>
      obtain ⟨event, hmem, hevent⟩ := List.exists_of_findSome?_eq_some hfirst
      cases event with
      | presented c =>
          rw [← Option.some.inj hevent, h.unique c hmem]
      | _ => cases hevent

/-- The report against the channel that it was read on. -/
def Heard (tls : Tls Cert) (cfg : ConnectionConfig) (verifier : Verifier) (info : PreflightInfo)
    (p : Progress Cert σ) : Prop :=
  ∃ cert rx, ListedPhase tls cfg verifier cert rx p ∧
    info = ⟨drainCapabilities rx, tls.fromCertDer cert⟩

theorem listCapabilities_spec (cert : Cert) (alreadyGreeted : Bool) :
    ⦃fun p => ⌜SecurePhase tls cfg verifier cert p⌝⦄ listCapabilities peer cert alreadyGreeted
    ⦃post⟨fun info p => ⌜Heard tls cfg verifier info p⌝,
      fun _ p => ⌜Sound tls cfg verifier p⌝⟩⦄ := by
  have hcapability := note_spec fun (p : Progress Cert σ)
    (h : SecurePhase tls cfg verifier cert p) => h.append (.inl rfl)
  have hlisted := fun rx => note_spec fun (p : Progress Cert σ)
    (h : SecurePhase tls cfg verifier cert p) => h.list rx
  have hheard : ∀ (p : Progress Cert σ) rx observed, ListedPhase tls cfg verifier cert rx p →
      p.lastObserved = some observed →
        Heard tls cfg verifier ⟨drainCapabilities rx, observed⟩ p := by
    intro p rx observed hphase hobserved
    rw [lastObserved_of_presented hphase.toPresentedPhase] at hobserved
    cases hobserved
    exact ⟨cert, rx, hphase, rfl⟩
  mvcgen [listCapabilities, readGreeting, await, fail, hcapability, hlisted]
  all_goals first
    | exact (SecurePhase.toResolved (by assumption)).sound
    | exact (ListedPhase.toSecurePhase (by assumption)).toResolved.sound
    | exact hheard _ _ _ (by assumption) (by assumption)

theorem probe_spec (verifier : Verifier) :
    ⦃fun p => ⌜PlainPhase (probeTls tls cfg) cfg verifier p⌝⦄ probe tls cfg peer verifier
    ⦃post⟨fun info p => ⌜Heard (probeTls tls cfg) cfg verifier info p⌝,
      fun _ p => ⌜Sound (probeTls tls cfg) cfg verifier p⌝⟩⦄ := by
  have henriched := fun (x : Connect Cert σ Cert) h =>
    @enriched_spec Cert σ Cert cfg (PlainPhase (probeTls tls cfg) cfg verifier)
      (fun cert p => SecurePhase (probeTls tls cfg) cfg verifier cert p)
      (fun stop p => Stopped (probeTls tls cfg) cfg verifier stop p)
      (fun _ p => Sound (probeTls tls cfg) cfg verifier p) x h
      (fun p hp => hp.sound) (fun e p hp => hp.sound)
  have hhandshake := fun op => henriched _
    (@tlsHandshake_spec Cert σ (probeTls tls cfg) cfg peer verifier op)
  have hupgrade := fun op hmode => henriched _
    (@starttlsUpgrade_spec Cert σ (probeTls tls cfg) cfg peer verifier op hmode)
  have hlist := @listCapabilities_spec Cert σ (probeTls tls cfg) cfg peer verifier
  mvcgen [probe, await, fail, hhandshake, hupgrade, hlist]
  all_goals exact PlainPhase.sound (by assumption)

/-! ### The probe -/

theorem fromCertDer_probeTls (tls : Tls Cert) (cfg : ConnectionConfig) :
    (probeTls tls cfg).fromCertDer = tls.fromCertDer := by
  unfold probeTls
  split <;> rfl

theorem presented?_probeTls (history : List (Event Cert σ)) :
    presented? (probeTls tls cfg) history = presented? tls history := by
  rw [presented?, presented?]
  congr 1
  funext event
  cases event with
  | presented cert => simp only [Event.fingerprint?, fromCertDer_probeTls]
  | _ => rfl

/-- With a pin, a probe trusts whom a connect trusts. -/
theorem pin_of_accepts (hverifier : buildTlsConfig cfg peer = .ok verifier) {cert : Cert}
    (haccepted : verifier.accepts (probeTls tls cfg) cfg cert = true) {pin : TlsFingerprint}
    (hpin : cfg.pinnedFingerprint = some pin) : tls.fromCertDer cert = pin := by
  have hcheck := (configuredCheck_iff (probeTls tls cfg) cfg peer hverifier cert).mpr haccepted
  rwa [ConfiguredCheck, hpin, fromCertDer_probeTls] at hcheck

/-- What the history of a probe may hold. -/
structure Discreet (tls : Tls Cert) (cfg : ConnectionConfig) (history : List (Event Cert σ)) :
    Prop where
  quiet : ∀ e ∈ history, ofLogin e = false
  plain : ∀ command, .sent none command ∈ history →
    cfg.encryption = .starttls ∧ (command = .capability ∨ command = .starttls)
  secure : ∀ cert command, .sent (some cert) command ∈ history →
    command = .capability ∧ .presented cert ∈ history ∧
      ∀ pin, cfg.pinnedFingerprint = some pin → tls.fromCertDer cert = pin

/-- A report of the one peer behind the channel, and of what it listed there. -/
def Reported (tls : Tls Cert) (cfg : ConnectionConfig) (info : PreflightInfo)
    (history : List (Event Cert σ)) : Prop :=
  ∃ cert rx, .presented cert ∈ history ∧ (∀ c, .presented c ∈ history → c = cert) ∧
    .listed (some cert) rx ∈ history ∧ info.tlsFingerprint = tls.fromCertDer cert ∧
    (∀ pin, cfg.pinnedFingerprint = some pin → info.tlsFingerprint = pin) ∧
    info.capabilities.Nodup ∧
    ∀ name, name ∈ info.capabilities ↔ name ≠ "" ∧ ∃ cap ∈ listings rx, spelling cap = name

theorem discreet_nil : Discreet tls cfg ([] : List (Event Cert σ)) where
  quiet := by simp
  plain := by simp
  secure := by simp

theorem discreet_of_licensed {history : List (Event Cert σ)}
    (hlic : Licensed (Allowed (probeTls tls cfg) cfg verifier) history)
    (hverifier : buildTlsConfig cfg peer = .ok verifier)
    (hquiet : ∀ e ∈ history, ofLogin e = false) : Discreet tls cfg history where
  quiet := hquiet
  plain := by
    intro command hmem
    obtain ⟨before, after, rfl, hmode, hcommand, -⟩ := hlic.exists_before hmem
    exact ⟨hmode, hcommand⟩
  secure := by
    intro cert command hmem
    have hnot := hquiet _ hmem
    obtain ⟨before, after, rfl, hok⟩ := hlic.exists_before hmem
    cases command with
    | capability =>
        refine ⟨rfl, List.mem_append_left _ hok.presented, ?_⟩
        intro pin hpin
        exact pin_of_accepts hverifier hok.accepted hpin
    | starttls => exact hok.elim
    | login username password => cases hnot

theorem Heard.reported {info : PreflightInfo} {p : Progress Cert σ}
    (h : Heard (probeTls tls cfg) cfg verifier info p)
    (hverifier : buildTlsConfig cfg peer = .ok verifier) :
    Reported tls cfg info p.history := by
  obtain ⟨cert, rx, hphase, rfl⟩ := h
  rw [fromCertDer_probeTls, drainCapabilities_eq]
  refine ⟨cert, rx, hphase.presented, hphase.unique, hphase.listed, rfl, ?_, ?_, ?_⟩
  · intro pin hpin
    exact pin_of_accepts hverifier hphase.accepted hpin
  · exact nodup_collectCapabilities List.nodup_nil
  · intro name
    rw [mem_collectCapabilities]
    simp

/-- **A probe gives nothing away and says what it heard.**  However the peer answers and
    wherever the probe is cut: it neither asks for a password nor sends one; in the clear it
    says CAPABILITY and STARTTLS, where STARTTLS is configured; over TLS it talks only to a
    peer that has shown the pinned certificate, if one is pinned.  A report has the
    fingerprint of the one certificate that was shown and the capabilities that were listed
    behind it, each once and no others.  A mismatch is reported of
    the pin and of the certificate that was shown. -/
theorem probe_reports (tls : Tls Cert) (cfg : ConnectionConfig) (peer : Peer Cert σ) :
    Discreet tls cfg (probePreflight tls cfg peer).progress.history ∧
      (∀ info, (probePreflight tls cfg peer).outcome = some (.ok info) →
        Reported tls cfg info (probePreflight tls cfg peer).progress.history) ∧
      ∀ e, (probePreflight tls cfg peer).outcome = some (.error e) →
        isTransport e = true ∨ ∃ observed expected, e = .tls observed expected ∧
          cfg.pinnedFingerprint = some expected ∧ observed ≠ expected ∧
          presented? tls (probePreflight tls cfg peer).progress.history = some observed := by
  cases hverifier : buildTlsConfig cfg peer with
  | error e =>
      have hrun : probePreflight tls cfg peer = ⟨some (.error e), {}⟩ := by
        rw [probePreflight, hverifier]
      rw [hrun]
      refine ⟨discreet_nil, by rintro info ⟨⟩, ?_⟩
      rintro _ ⟨rfl⟩
      unfold buildTlsConfig at hverifier
      split at hverifier
      · cases hverifier
        exact .inl rfl
      · split at hverifier <;> cases hverifier
  | ok verifier =>
      have hstart : PlainPhase (probeTls tls cfg) cfg verifier ({} : Progress Cert σ) :=
        ⟨sound_empty, by simp⟩
      have hempty : Quiet ({} : Progress Cert σ) := by
        simp [Quiet]
      have hquiet := ends_of_triple (@probe_quiet Cert σ tls cfg peer verifier) hempty
      have hheard := ends_of_triple (@probe_spec Cert σ tls cfg peer verifier) hstart
      rcases hrun : (probe tls cfg peer verifier).run.run {} with ⟨(e | _) | info, p⟩
      · have heq : probePreflight tls cfg peer = ⟨some (.error e), p⟩ := by
          simp only [probePreflight, hverifier, hrun]
        rw [hrun] at hquiet hheard
        rw [heq]
        refine ⟨discreet_of_licensed hheard.licensed hverifier hquiet.1, by rintro info ⟨⟩, ?_⟩
        rintro _ ⟨rfl⟩
        rcases hquiet.2 e rfl with htransport | ⟨observed, expected, rfl, hpin, hobserved, hne⟩
        · exact .inl htransport
        · refine .inr ⟨observed, expected, rfl, hpin, hne, ?_⟩
          rw [← @presented?_probeTls Cert σ tls cfg, presented?, ← hheard.observed, hobserved]
      · have heq : probePreflight tls cfg peer = ⟨none, p⟩ := by
          simp only [probePreflight, hverifier, hrun]
        rw [hrun] at hquiet hheard
        rw [heq]
        exact ⟨discreet_of_licensed hheard.licensed hverifier hquiet.1, by rintro info ⟨⟩,
          by rintro e ⟨⟩⟩
      · have heq : probePreflight tls cfg peer = ⟨some (.ok info), p⟩ := by
          simp only [probePreflight, hverifier, hrun]
        rw [hrun] at hquiet hheard
        rw [heq]
        obtain ⟨cert, rx, hphase, hinfo⟩ := hheard
        refine ⟨discreet_of_licensed hphase.sound.licensed hverifier hquiet, ?_, by rintro e ⟨⟩⟩
        rintro _ ⟨rfl⟩
        exact Heard.reported ⟨cert, rx, hphase, hinfo⟩ hverifier

/-! ## A connect after a probe -/

theorem run_bind_eq {β : Type} {x : Connect Cert σ α} {f : α → Connect Cert σ β} {a : α}
    {p q : Progress Cert σ} (h : x.run.run p = (.ok a, q)) :
    (x >>= f).run.run p = (f a).run.run q := by
  rw [ExceptT.run_bind, StateT.run_bind, h]
  rfl

theorem run_bind_eq_ok {β : Type} {x : Connect Cert σ α} {f : α → Connect Cert σ β} {b : β}
    {p r : Progress Cert σ} (h : (x >>= f).run.run p = (.ok b, r)) :
    ∃ a q, x.run.run p = (.ok a, q) ∧ (f a).run.run q = (.ok b, r) := by
  rcases hx : x.run.run p with ⟨e | a, q⟩
  · rw [ExceptT.run_bind, StateT.run_bind, hx] at h
    cases h
  · rw [run_bind_eq hx] at h
    exact ⟨a, q, rfl, h⟩

/-- A step that comes through is not rewritten. -/
theorem run_enriched_eq_ok {x : Connect Cert σ α} {p q : Progress Cert σ} {a : α}
    (h : (enriched cfg x).run.run p = (.ok a, q)) : x.run.run p = (.ok a, q) := by
  simp only [enriched, tryCatch, tryCatchThe, MonadExceptOf.tryCatch, ExceptT.tryCatch,
    ExceptT.run_mk, StateT.run_bind] at h
  rcases hx : x.run.run p with ⟨(e | _) | b, r⟩
  all_goals
    have hx' : StateT.run x p = _ := hx
    rw [hx'] at h
  · cases h
  · cases h
  · exact h

/-- Where WebPKI takes who answers, the two verifiers are one. -/
theorem tlsHandshake_probeTls (op : String) (hverifier : buildTlsConfig cfg peer = .ok verifier)
    (hwebpki : cfg.pinnedFingerprint = none →
      ∀ cert, peer.certificate = .answer (some cert) → tls.webpki cfg.host cert = true) :
    tlsHandshake (probeTls tls cfg) cfg peer op verifier =
      (tlsHandshake tls cfg peer op verifier : Connect Cert σ Cert) := by
  unfold probeTls
  split
  · rfl
  · rename_i hpin
    unfold tlsHandshake
    rcases hcert : peer.certificate with (_ | shown) | _ | _
    · rfl
    · have hcheck : ConfiguredCheck tls cfg shown := by
        rw [ConfiguredCheck, hpin]
        exact hwebpki hpin shown hcert
      have haccepts := (configuredCheck_iff tls cfg peer hverifier shown).mp hcheck
      have hverify : (verifyServerCert { tls with webpki := fun _ _ => true } cfg verifier shown :
          Connect Cert σ Bool) = verifyServerCert tls cfg verifier shown := by
        unfold verifyServerCert
        rw [haccepts]
        cases verifier with
        | pinning pin => rw [← haccepts]; rfl
        | capturing => rfl
      simp only [await, pure_bind, hverify]
    · rfl
    · rfl

theorem Completion.eq_of_ok {c : Completion} {r : Except ImapOps.AsyncImapError Unit}
    (hresult : c.result = r) (hok : ∀ e, r ≠ .error e) : c = ⟨.ok (), c.rx⟩ := by
  subst hresult
  rcases c with ⟨e | _, rx⟩
  · exact absurd rfl (hok e)
  · rfl

theorem listCapabilities_ends (cert : Cert) (alreadyGreeted : Bool)
    (history : List (Event Cert σ)) :
    ⦃fun p => ⌜p.history = history⌝⦄ listCapabilities peer cert alreadyGreeted
    ⦃post⟨fun _ p =>
        ⌜(alreadyGreeted = false → ∃ response, peer.greeting = .answer (.ok (some response))) ∧
          ∃ rx, peer.capability = .answer ⟨.ok (), rx⟩ ∧
            p.history = history ++ [.sent (some cert) .capability, .listed (some cert) rx]⌝,
      fun _ _ => ⌜True⌝⟩⦄ := by
  mvcgen [listCapabilities, readGreeting, note, await, fail]
  all_goals simp_all +zetaDelta
  · exact Completion.eq_of_ok (by assumption) (by assumption)
  · exact Completion.eq_of_ok (by assumption) (by assumption)

/-- A connect that gets as far as the probe. -/
theorem imapLogin_goesOn {op : String} {cert : Cert} {rx : List UnsolicitedResponse}
    {alreadyGreeted : Bool} (history : List (Event Cert σ))
    (hgreeting : alreadyGreeted = false →
      ∃ response, peer.greeting = .answer (.ok (some response)) ∧ response ≠ .data .bye)
    (hlisting : peer.capability = .answer ⟨.ok (), rx⟩) :
    ⦃fun p => ⌜p.history = history⌝⦄ imapLogin cfg peer op cert alreadyGreeted
    ⦃post⟨fun _ p => ⌜history ++ [.sent (some cert) .capability, .listed (some cert) rx] <+:
        p.history⌝,
      fun _ p => ⌜history ++ [.sent (some cert) .capability, .listed (some cert) rx] <+:
        p.history⌝⟩⦄ := by
  mvcgen [imapLogin, ConnectProtocol.readGreeting, recordCredentialSource, note, await, fail]
  all_goals simp_all +zetaDelta

/-- On one channel, a login goes on from the listing of a probe. -/
theorem goesOn_of_listed {op : String} {cert : Cert} {greeted : Bool} {info : PreflightInfo}
    {p q : Progress Cert σ}
    (hlist : (listCapabilities peer cert greeted).run.run p = (.ok info, q))
    (hgreeting : greeted = false → peer.greeting ≠ .answer (.ok (some (.data .bye)))) :
    q.history <+: ((imapLogin cfg peer op cert greeted).run.run p).2.history := by
  have hends := ends_of_triple (@listCapabilities_ends Cert σ peer cert greeted p.history) rfl
  rw [hlist] at hends
  obtain ⟨hgreeted, rx, hrx, hhistory⟩ := hends
  have hwelcome : greeted = false →
      ∃ response, peer.greeting = .answer (.ok (some response)) ∧ response ≠ .data .bye := by
    intro hnew
    obtain ⟨response, hresponse⟩ := hgreeted hnew
    refine ⟨response, hresponse, ?_⟩
    rintro rfl
    exact hgreeting hnew hresponse
  have hlogin := ends_of_triple
    (@imapLogin_goesOn Cert σ cfg peer op cert rx greeted p.history hwelcome hrx) rfl
  rw [hhistory]
  rcases hrun : (imapLogin cfg peer op cert greeted).run.run p with ⟨stop | a, r⟩
  · rw [hrun] at hlogin
    exact hlogin
  · rw [hrun] at hlogin
    exact hlogin

theorem probe_goesOn {info : PreflightInfo} {p : Progress Cert σ}
    (hverifier : buildTlsConfig cfg peer = .ok verifier)
    (hwebpki : cfg.pinnedFingerprint = none →
      ∀ cert, peer.certificate = .answer (some cert) → tls.webpki cfg.host cert = true)
    (hgreeting : cfg.encryption = .tls → peer.greeting ≠ .answer (.ok (some (.data .bye))))
    (hrun : (probe tls cfg peer verifier).run.run {} = (.ok info, p)) :
    p.history <+: ((connectWithBundle tls cfg peer verifier).run.run {}).2.history := by
  unfold probe at hrun
  obtain ⟨tcp, start, htcp, hrun⟩ := run_bind_eq_ok hrun
  rcases tcp with e | ⟨⟩
  · cases hrun
  unfold connectWithBundle
  rw [run_bind_eq htcp]
  cases hmode : cfg.encryption with
  | tls =>
      simp only [hmode] at hrun
      obtain ⟨cert, q, hchannel, hlist⟩ := run_bind_eq_ok hrun
      have hshake := run_enriched_eq_ok hchannel
      rw [tlsHandshake_probeTls "tls_handshake" hverifier hwebpki] at hshake
      dsimp only
      rw [run_bind_eq hshake]
      exact goesOn_of_listed hlist fun _ => hgreeting hmode
  | starttls =>
      simp only [hmode] at hrun
      obtain ⟨cert, q, hchannel, hlist⟩ := run_bind_eq_ok hrun
      have hupgrade := run_enriched_eq_ok hchannel
      unfold starttlsUpgrade at hupgrade
      rw [tlsHandshake_probeTls "starttls_upgrade" hverifier hwebpki] at hupgrade
      dsimp only
      rw [starttlsUpgrade, run_bind_eq hupgrade]
      exact goesOn_of_listed hlist (by rintro ⟨⟩)

/-- **A connect goes on from the probe.**  Where a probe has come through, a connect to a peer
    that answers alike says and hears all that the probe did before anything else, but for two
    things that only a probe takes: a BYE for a greeting, and, with no pin, a certificate that
    WebPKI does not. -/
theorem connectInner_goesOn (tls : Tls Cert) (cfg : ConnectionConfig) (peer : Peer Cert σ)
    (answer : SinkAnswer) {info : PreflightInfo}
    (hprobe : (probePreflight tls cfg peer).outcome = some (.ok info))
    (hwebpki : cfg.pinnedFingerprint = none →
      ∀ cert, peer.certificate = .answer (some cert) → tls.webpki cfg.host cert = true)
    (hgreeting : cfg.encryption = .tls → peer.greeting ≠ .answer (.ok (some (.data .bye)))) :
    (probePreflight tls cfg peer).progress.history <+:
      (connectInner tls cfg peer answer).progress.history := by
  cases hverifier : buildTlsConfig cfg peer with
  | error e =>
      rw [probePreflight, hverifier] at hprobe
      cases hprobe
  | ok verifier =>
      rcases hrun : (probe tls cfg peer verifier).run.run {} with ⟨(e | _) | i, p⟩
      · simp only [probePreflight, hverifier, hrun] at hprobe
        cases hprobe
      · simp only [probePreflight, hverifier, hrun] at hprobe
        cases hprobe
      · have hprogress : (connectInner tls cfg peer answer).progress =
            ((connectWithBundle tls cfg peer verifier).run.run {}).2 := by
          simp only [connectInner, hverifier]
          rcases (connectWithBundle tls cfg peer verifier).run.run {} with ⟨(e | _) | a, q⟩ <;> rfl
        rw [hprogress]
        simp only [probePreflight, hverifier, hrun]
        exact probe_goesOn hverifier hwebpki hgreeting hrun

end

namespace Sample

/-- A server with a chain of trust, over TLS from the start. -/
def tls : Tls Unit := { AuthTrail.Sample.tls with webpki := fun _ _ => true }

def cfg : ConnectionConfig :=
  { AuthTrail.Sample.cfg with encryption := .tls, port := 993, pinnedFingerprint := none }

def peer : Peer Unit String :=
  { AuthTrail.Sample.peer with greeting := .answer (.ok (some (.data .ok))) }

def info : PreflightInfo :=
  ⟨drainCapabilities (AuthTrail.Sample.listing ["MOVE"]).rx, tls.fromCertDer ()⟩

end Sample

/-- The login is what the connect adds. -/
theorem connectInner_goesOn_sample :
    (probePreflight Sample.tls Sample.cfg Sample.peer).progress.history.length = 3 ∧
      (connectInner Sample.tls Sample.cfg Sample.peer .accepted).progress.history.length = 6 ∧
      (probePreflight Sample.tls Sample.cfg Sample.peer).progress.history <+:
        (connectInner Sample.tls Sample.cfg Sample.peer .accepted).progress.history := by
  have hprobe : (probePreflight Sample.tls Sample.cfg Sample.peer).outcome =
      some (.ok Sample.info) := rfl
  refine ⟨rfl, by decide +kernel, ?_⟩
  exact connectInner_goesOn Sample.tls Sample.cfg Sample.peer .accepted hprobe
    (fun _ _ _ => rfl) (by rintro - ⟨⟩)

end RustyImap.Preflight
