import RustyImap.ConfigModel

/-!
# Credentials

`rimap-config/src/credential.rs` and the username check of
`rimap-config/src/validate/identity.rs`.

One flat keyring holds the entries of every account.  A lookup tries the namespaced
key and then the legacy one, which has no account id in it, and a username may hold
any character but three.  What an entry is and who wrote it the code does not know:
it is generic in the secret, and the keyring here hands out secrets that remember
their writer.
-/

namespace RustyImap.Config

/-! ## Usernames -/

def validateUsernameField (username field : String) : Except ConfigError Unit :=
  if username.isEmpty then .error (.invalidLimit field "username must not be empty")
  else if username.toList.any fun c => c == '\r' || c == '\n' || c == '\x00' then
    .error (.invalidLimit field "username must not contain CR, LF, or NUL")
  else .ok ()

def validateImapUsername (username : String) : Except ConfigError Unit :=
  validateUsernameField username "imap.username"

def validateSmtpUsername (username : String) : Except ConfigError Unit :=
  validateUsernameField username "smtp.username"

/-- A name that both checks accept. -/
def isUsername (username : String) : Bool :=
  !username.isEmpty && username.toList.all fun c => c != '\r' && c != '\n' && c != '\x00'

theorem validateUsernameField_ok_iff {username field : String} :
    validateUsernameField username field = .ok () ↔ isUsername username = true := by
  unfold validateUsernameField isUsername
  rcases hempty : username.isEmpty with _ | _
  · rw [if_neg (by simp)]
    by_cases hbad : (username.toList.any fun c => c == '\r' || c == '\n' || c == '\x00') = true
    · rw [if_pos hbad]
      obtain ⟨c, hmem, hc⟩ := List.any_eq_true.mp hbad
      simp only [reduceCtorEq, Bool.not_false, Bool.true_and, List.all_eq_true, false_iff]
      intro hall
      have hgood := hall c hmem
      grind
    · rw [if_neg hbad]
      simp only [Bool.not_false, Bool.true_and, List.all_eq_true, true_iff]
      intro c hmem
      have hc : ¬ (c == '\r' || c == '\n' || c == '\x00') = true := by
        intro hc
        exact hbad (List.any_eq_true.mpr ⟨c, hmem, hc⟩)
      grind
  · simp

/-- What an account of a validated configuration logs in with, over IMAP or SMTP. -/
structure Login where
  id : AccountId
  username : String
  host : String
  valid : isUsername username = true
deriving DecidableEq

/-! ## Keys -/

def KEYCHAIN_SERVICE : String := "rusty-imap-mcp"

def accountKey (accountId : AccountId) (username host : String) : String :=
  accountId.name ++ "/" ++ username ++ "@" ++ host

def legacyAccountKey (username host : String) : String := username ++ "@" ++ host

def Login.key (login : Login) : String := accountKey login.id login.username login.host

def Login.legacyKey (login : Login) : String := legacyAccountKey login.username login.host

/-- `{byte:02x}`. -/
def hexByte (byte : UInt8) : List Char :=
  [Nat.digitChar (byte.toNat / 16), Nat.digitChar (byte.toNat % 16)]

/-- The first eight bytes of the digest of `username@host`. -/
def hashAccountTag (sha256 : String → List UInt8) (username host : String) : String :=
  .ofList (((sha256 (username ++ "@" ++ host)).take 8).flatMap hexByte)

def splitAccountForError (sha256 : String → List UInt8) (account : String) : String × String :=
  let (username, host) := (splitOnce account '@').getD ("", account)
  (host, hashAccountTag sha256 username host)

/-! ## Sources -/

inductive Protocol where
  | imap
  | smtp
deriving DecidableEq, Repr

def PASSWORD_ENV_VAR : String := "RUSTY_IMAP_MCP_PASSWORD"

def Protocol.envVarName : Protocol → String
  | .imap => "RUSTY_IMAP_MCP_IMAP_PASSWORD"
  | .smtp => "RUSTY_IMAP_MCP_SMTP_PASSWORD"

structure ResolutionPolicy where
  fallbackMode : FallbackMode
  protocol : Protocol
deriving DecidableEq, Repr

inductive CredentialSource where
  | keyring
  | legacyKeyring
  | envVar
deriving DecidableEq, Repr

/-- `SecretString`: the code reads it in one place and makes one in another. -/
structure SecretString (σ : Type) where
  exposeSecret : σ → String
  ofString : String → σ

/-- What resolution calls of a `CredentialStore`. -/
structure CredentialStore (σ : Type) where
  getPassword : String → Except ConfigError (Option σ)

/-- `resolve_env_fallback`: a defined but empty variable counts as unset. -/
def resolveEnvFallback (env : String → Option String) (protoVar : String) :
    Option (String × String) :=
  (nonEmpty protoVar).or (nonEmpty PASSWORD_ENV_VAR)
where
  nonEmpty (name : String) : Option (String × String) :=
    ((env name).filter fun value => !value.isEmpty).map fun value => (name, value)

/-! ## Resolution -/

section Resolution

variable {σ : Type} (secrets : SecretString σ) (sha256 : String → List UInt8)
  (env : String → Option String)

/-- What one key of the store answers; an empty password counts as none. -/
inductive Probe (σ : Type) where
  | found (secret : σ)
  | missing
  | failed (err : ConfigError)

def Probe.map {τ : Type} (f : σ → τ) : Probe σ → Probe τ
  | .found secret => .found (f secret)
  | .missing => .missing
  | .failed err => .failed err

def probe (store : CredentialStore σ) (key : String) : Probe σ :=
  match store.getPassword key with
  | .ok (some p) => if (secrets.exposeSecret p).isEmpty then .missing else .found p
  | .ok none => .missing
  | .error e => .failed e

def buildNoCredentialReason (accountId : AccountId) (policy : ResolutionPolicy)
    (newKey legacyKey : String) : String :=
  let missed := "no entry in keychain service `" ++ KEYCHAIN_SERVICE ++ "` under key `" ++ newKey ++
    "` or legacy `" ++ legacyKey ++ "`"
  let login := "Run `rusty-imap-mcp login --account " ++ accountId.name ++ "`"
  match policy.fallbackMode with
  | .keyringOnly =>
      missed ++ "; fallback mode is keyring-only (env var not consulted). " ++ login
  | .keyringThenEnv =>
      missed ++ ", and neither `" ++ policy.protocol.envVarName ++ "` nor `" ++
        PASSWORD_ENV_VAR ++ "` is set. " ++ login ++ " or set `" ++
        policy.protocol.envVarName ++ "`"

/-- The tail of `resolve_credential`, after the keyring had nothing or failed. -/
def resolveWithoutKeyring (accountId : AccountId) (username host : String)
    (policy : ResolutionPolicy) (keyringError : Option ConfigError) :
    Except ConfigError (σ × CredentialSource) :=
  let fallback :=
    match policy.fallbackMode with
    | .keyringThenEnv => resolveEnvFallback env policy.protocol.envVarName
    | .keyringOnly => none
  match fallback, keyringError with
  | some (_, value), _ => .ok (secrets.ofString value, .envVar)
  | none, some e => .error e
  | none, none =>
      .error (.noCredential host (hashAccountTag sha256 username host)
        (buildNoCredentialReason accountId policy (accountKey accountId username host)
          (legacyAccountKey username host)))

/-- A store that fails on the first key is not asked for the legacy one. -/
def resolveCredential (store : CredentialStore σ) (accountId : AccountId)
    (username host : String) (policy : ResolutionPolicy) :
    Except ConfigError (σ × CredentialSource) :=
  match probe secrets store (accountKey accountId username host) with
  | .found p => .ok (p, .keyring)
  | .failed e =>
      resolveWithoutKeyring secrets sha256 env accountId username host policy (some e)
  | .missing =>
      match probe secrets store (legacyAccountKey username host) with
      | .found p => .ok (p, .legacyKeyring)
      | .missing => resolveWithoutKeyring secrets sha256 env accountId username host policy none
      | .failed e =>
          resolveWithoutKeyring secrets sha256 env accountId username host policy (some e)

/-- Where a resolved secret comes from. -/
theorem resolveCredential_ok {store : CredentialStore σ} {accountId : AccountId}
    {username host : String} {policy : ResolutionPolicy} {secret : σ} {source : CredentialSource}
    (h : resolveCredential secrets sha256 env store accountId username host policy =
      .ok (secret, source)) :
    store.getPassword (accountKey accountId username host) = .ok (some secret) ∨
      store.getPassword (legacyAccountKey username host) = .ok (some secret) ∨
        ∃ value, secret = secrets.ofString value := by
  have hprobe : ∀ key p, probe secrets store key = .found p →
      store.getPassword key = .ok (some p) := by
    intro key p hfound
    unfold probe at hfound
    grind
  have htail : ∀ err, resolveWithoutKeyring secrets sha256 env accountId username host policy err =
      .ok (secret, source) → ∃ value, secret = secrets.ofString value := by
    intro err hok
    unfold resolveWithoutKeyring at hok
    grind
  unfold resolveCredential at h
  rcases hnew : probe secrets store (accountKey accountId username host) with p | _ | e
  · rw [hnew] at h
    cases h
    exact Or.inl (hprobe _ _ hnew)
  · rw [hnew] at h
    rcases hlegacy : probe secrets store (legacyAccountKey username host) with p | _ | e
    · rw [hlegacy] at h
      cases h
      exact Or.inr (Or.inl (hprobe _ _ hlegacy))
    · rw [hlegacy] at h
      exact Or.inr (Or.inr (htail _ h))
    · rw [hlegacy] at h
      exact Or.inr (Or.inr (htail _ h))
  · rw [hnew] at h
    exact Or.inr (Or.inr (htail _ h))

/-- The store with its secrets rewritten. -/
def CredentialStore.map {τ : Type} (f : σ → τ) (store : CredentialStore σ) : CredentialStore τ where
  getPassword key := (store.getPassword key).map (Option.map f)

/-- Resolution reads nothing of a secret but its text. -/
theorem resolveCredential_map {τ : Type} (secrets' : SecretString τ) (f : σ → τ)
    (hexpose : ∀ secret, secrets'.exposeSecret (f secret) = secrets.exposeSecret secret)
    (hof : ∀ value, f (secrets.ofString value) = secrets'.ofString value)
    (store : CredentialStore σ) (accountId : AccountId) (username host : String)
    (policy : ResolutionPolicy) :
    resolveCredential secrets' sha256 env (store.map f) accountId username host policy =
      (resolveCredential secrets sha256 env store accountId username host policy).map
        (Prod.map f id) := by
  have hprobe : ∀ key, probe secrets' (store.map f) key = (probe secrets store key).map f := by
    intro key
    unfold probe CredentialStore.map
    dsimp only
    rcases store.getPassword key with e | _ | p
    · rfl
    · rfl
    · simp only [Except.map, Option.map_some, hexpose]
      split <;> rfl
  have htail : ∀ err,
      resolveWithoutKeyring secrets' sha256 env accountId username host policy err =
        (resolveWithoutKeyring secrets sha256 env accountId username host policy err).map
          (Prod.map f id) := by
    intro err
    unfold resolveWithoutKeyring
    generalize (match policy.fallbackMode with
      | .keyringThenEnv => resolveEnvFallback env policy.protocol.envVarName
      | .keyringOnly => none) = fallback
    rcases fallback with _ | ⟨name, value⟩
    · cases err <;> rfl
    · simp only [Except.map, Prod.map, id, hof]
  unfold resolveCredential
  rw [hprobe, hprobe]
  rcases probe secrets store (accountKey accountId username host) with p | _ | e
  · rfl
  · rcases probe secrets store (legacyAccountKey username host) with p | _ | e
    · rfl
    · exact htail none
    · exact htail (some e)
  · exact htail (some e)

end Resolution

/-! ## The keyring -/

/-- What `login` writes: a password under the key of its account. -/
structure Entry where
  writer : Login
  password : String
deriving DecidableEq

/-- Entries, newest first; the platform may fail on any key. -/
structure Keyring where
  written : List Entry
  failing : String → Bool

/-- A secret that remembers who wrote it. -/
inductive Secret where
  | entry (held : Entry)
  | env (value : String)
deriving DecidableEq

def Secret.text : Secret → String
  | .entry held => held.password
  | .env value => value

def tracked : SecretString Secret := ⟨Secret.text, .env⟩

def plain : SecretString String := ⟨id, id⟩

/-- `KeyringStore`: an entry replaces the older ones under its key. -/
def Keyring.store (sha256 : String → List UInt8) (ring : Keyring) : CredentialStore Secret where
  getPassword account :=
    if ring.failing account then
      let (host, accountTag) := splitAccountForError sha256 account
      .error (.keychain host accountTag)
    else .ok ((ring.written.find? fun entry => entry.writer.key == account).map .entry)

theorem Keyring.writer_key {sha256 : String → List UInt8} {ring : Keyring} {key : String}
    {entry : Entry} (h : (ring.store sha256).getPassword key = .ok (some (.entry entry))) :
    entry.writer.key = key := by
  unfold Keyring.store at h
  dsimp only at h
  split at h
  · cases h
  · rw [Except.ok.injEq, Option.map_eq_some_iff] at h
    obtain ⟨found, hfind, heq⟩ := h
    cases heq
    have hkey := List.find?_some hfind
    exact eq_of_beq hkey

/-- The server runs on plain strings: it returns the text that the tracked run does. -/
theorem resolveCredential_plain (sha256 : String → List UInt8) (env : String → Option String)
    (ring : Keyring) (login : Login) (policy : ResolutionPolicy) :
    resolveCredential plain sha256 env ((ring.store sha256).map Secret.text) login.id
        login.username login.host policy =
      (resolveCredential tracked sha256 env (ring.store sha256) login.id login.username
        login.host policy).map (Prod.map Secret.text id) :=
  resolveCredential_map tracked sha256 env plain Secret.text (fun _ => rfl) (fun _ => rfl) _ _ _ _
    policy

/-! ## When two keys are one -/

/-- Two texts around a separator that neither side before it holds. -/
theorem append_cons_eq_append_cons {α : Type} {x c : α} {front front' back back' : List α}
    (hx : x ∉ front') (hne : x ≠ c) :
    front ++ x :: back = front' ++ c :: back' ↔
      ∃ rest, front = front' ++ c :: rest ∧ rest ++ x :: back = back' := by
  constructor
  · intro h
    rcases List.append_eq_append_iff.mp h with ⟨rest, hfront, hback⟩ | ⟨rest, hfront, hback⟩
    · rcases rest with _ | ⟨d, rest⟩
      · rw [List.nil_append] at hback
        exact absurd (List.cons.inj hback).1 hne
      · rw [List.cons_append] at hback
        rw [(List.cons.inj hback).1, hfront] at hx
        exact absurd (List.mem_append_right _ List.mem_cons_self) hx
    · rcases rest with _ | ⟨d, rest⟩
      · rw [List.nil_append] at hback
        exact absurd (List.cons.inj hback).1.symm hne
      · rw [List.cons_append] at hback
        obtain ⟨rfl, hrest⟩ := List.cons.inj hback
        exact ⟨rest, hfront, hrest.symm⟩
  · rintro ⟨rest, rfl, rfl⟩
    simp

/-- An account id holds neither separator. -/
theorem separator_notMem (id : AccountId) : '/' ∉ id.name.toList ∧ '@' ∉ id.name.toList := by
  constructor <;> intro hmem <;> exact absurd (id.chars _ hmem) (by decide)

theorem key_toList (login : Login) :
    login.key.toList =
      login.id.name.toList ++ '/' :: (login.username.toList ++ '@' :: login.host.toList) := by
  simp [Login.key, accountKey]

theorem legacyKey_toList (login : Login) :
    login.legacyKey.toList = login.username.toList ++ '@' :: login.host.toList := by
  simp [Login.legacyKey, legacyAccountKey]

/-- The key of an account tells its id. -/
theorem id_eq_of_key_eq {a b : Login} (h : a.key = b.key) : a.id = b.id := by
  have hlists := congrArg String.toList h
  rw [key_toList, key_toList] at hlists
  have hfront : ∀ (login : Login) (rest : List Char),
      (login.id.name.toList ++ '/' :: rest).takeWhile (· != '/') = login.id.name.toList := by
    intro login rest
    rw [List.takeWhile_append_of_pos, List.takeWhile_cons_of_neg (by simp), List.append_nil]
    intro c hc
    have hne : c ≠ '/' := fun heq => (separator_notMem login.id).1 (heq ▸ hc)
    simpa using hne
  have hnames := congrArg (List.takeWhile (· != '/')) hlists
  rw [hfront, hfront] at hnames
  exact AccountId.ext (String.toList_inj.mp hnames)

/-- The username of `a` starts with the id of `b` and a slash, and what follows makes,
    with the host of `a`, the address of `b`. -/
def SpellsKeyOf (a b : Login) : Prop :=
  ∃ rest, a.username = b.id.name ++ "/" ++ rest ∧
    rest ++ "@" ++ a.host = b.username ++ "@" ++ b.host

theorem legacyKey_eq_key_iff {a b : Login} : a.legacyKey = b.key ↔ SpellsKeyOf a b := by
  rw [← String.toList_inj, legacyKey_toList, key_toList,
    append_cons_eq_append_cons (separator_notMem b.id).2 (by decide)]
  constructor
  · rintro ⟨rest, husername, haddress⟩
    refine ⟨.ofList rest, ?_, ?_⟩
    · apply String.toList_inj.mp
      simp [husername]
    · apply String.toList_inj.mp
      simp [haddress]
  · rintro ⟨rest, husername, haddress⟩
    refine ⟨rest.toList, ?_, ?_⟩
    · rw [husername]
      simp
    · have hlists := congrArg String.toList haddress
      simpa using hlists

/-! ## Isolation -/

/-- No entry that `b` wrote is returned to `a`, whatever else is in the keyring, whatever
    fails and whatever the policy. -/
def NeverReturned (a b : Login) : Prop :=
  ∀ (sha256 : String → List UInt8) (env : String → Option String) (ring : Keyring)
    (policy : ResolutionPolicy) (entry : Entry) (source : CredentialSource),
    resolveCredential tracked sha256 env (ring.store sha256) a.id a.username a.host policy =
      .ok (.entry entry, source) → entry.writer ≠ b

structure Isolated (a b : Login) : Prop where
  never_returned : NeverReturned a b
  key_apart : a.key ≠ b.key
  legacyKey_apart : a.legacyKey ≠ b.key

theorem neverReturned_of_keys_apart {a b : Login} (hkey : a.key ≠ b.key)
    (hlegacy : a.legacyKey ≠ b.key) : NeverReturned a b := by
  intro sha256 env ring policy entry source h hwriter
  subst hwriter
  rcases resolveCredential_ok tracked sha256 env h with hnew | hold | ⟨value, henv⟩
  · exact hkey (Keyring.writer_key hnew).symm
  · exact hlegacy (Keyring.writer_key hold).symm
  · cases henv

/-- A keyring with nothing in it but the entry of `b`. -/
def loneEntry (b : Login) : Keyring := ⟨[⟨b, "secret"⟩], fun _ => false⟩

/-- The legacy lookup of `a` finds the entry of `b`. -/
theorem resolve_loneEntry {a b : Login} (hkey : a.key ≠ b.key) (hlegacy : a.legacyKey = b.key)
    (sha256 : String → List UInt8) (env : String → Option String) (policy : ResolutionPolicy) :
    resolveCredential tracked sha256 env ((loneEntry b).store sha256) a.id a.username a.host
        policy =
      .ok (.entry ⟨b, "secret"⟩, .legacyKeyring) := by
  have hnew : probe tracked ((loneEntry b).store sha256) a.key = .missing := by
    simp [probe, Keyring.store, loneEntry, Ne.symm hkey]
  have hold : probe tracked ((loneEntry b).store sha256) a.legacyKey =
      .found (.entry ⟨b, "secret"⟩) := by
    simp [probe, Keyring.store, loneEntry, hlegacy, tracked, Secret.text]
  unfold Login.key at hnew
  unfold Login.legacyKey at hold
  simp only [resolveCredential, hnew, hold]

/-- **Two accounts are isolated unless the username of one spells the key of the other,
    and then its entry does reach the first.** -/
theorem isolated_iff {a b : Login} (hne : a.id ≠ b.id) :
    (Isolated a b ↔ ¬ SpellsKeyOf a b) ∧ (NeverReturned a b ↔ ¬ SpellsKeyOf a b) := by
  have hkey : a.key ≠ b.key := fun h => hne (id_eq_of_key_eq h)
  have hreturned : NeverReturned a b ↔ ¬ SpellsKeyOf a b := by
    rw [← legacyKey_eq_key_iff]
    constructor
    · intro hnever hlegacy
      have hleak := resolve_loneEntry hkey hlegacy (fun _ => []) (fun _ => none)
        ⟨.keyringOnly, .imap⟩
      exact hnever _ _ _ _ _ _ hleak rfl
    · exact neverReturned_of_keys_apart hkey
  refine ⟨?_, hreturned⟩
  constructor
  · intro h
    exact hreturned.mp h.never_returned
  · intro h
    exact ⟨hreturned.mpr h, hkey, fun hlegacy => h (legacyKey_eq_key_iff.mp hlegacy)⟩

/-- An id of one letter. -/
def letterId (c : Char) (h : isAccountChar c = true) : AccountId where
  name := .ofList [c]
  nonempty := by simp
  short := by
    have hsize := c.utf8Size_le_four
    simp only [utf8Len, String.toList_ofList, List.map_cons, List.map_nil, List.sum_cons,
      List.sum_nil, MAX_ACCOUNT_NAME_LEN]
    omega
  chars := by simpa using h

/-- Account `b` of `bob@h`, and an account `a` of the shared mailbox `b/bob@h`. -/
def bob : Login := ⟨letterId 'b' (by decide), "bob", "h", by decide⟩

def sharedMailbox : Login := ⟨letterId 'a' (by decide), "b/bob", "h", by decide⟩

theorem isolated_iff_bob :
    bob.id ≠ sharedMailbox.id ∧ (Isolated bob sharedMailbox ↔ ¬ SpellsKeyOf bob sharedMailbox) ∧
      (NeverReturned bob sharedMailbox ↔ ¬ SpellsKeyOf bob sharedMailbox) :=
  ⟨by decide, isolated_iff (by decide)⟩

theorem not_isolated :
    sharedMailbox.id ≠ bob.id ∧ ¬ NeverReturned sharedMailbox bob ∧
      ¬ ∀ a b : Login, a.id ≠ b.id → Isolated a b := by
  have hleak : ¬ NeverReturned sharedMailbox bob := by
    intro hnever
    have hfound := resolve_loneEntry (a := sharedMailbox) (b := bob) (by decide) (by decide)
      (fun _ => []) (fun _ => none) ⟨.keyringOnly, .imap⟩
    exact hnever _ _ _ _ _ _ hfound rfl
  refine ⟨by decide, hleak, ?_⟩
  intro h
  exact hleak (h sharedMailbox bob (by decide)).never_returned

end RustyImap.Config
