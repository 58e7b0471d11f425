import RustyImap.Credentials
import RustyImap.LabelledRuns
import Mathlib.Logic.Function.Basic

/-!
# Migrating the keyring

`migrate_one` (`rimap-server/src/cli/migrate_keyring.rs`) moves the password of one
account from its legacy key to its namespaced one.  A store has no way to delete, so
the legacy entry stays behind as an empty one.

Calls come in any order and any operation of a call may fail; a failed operation
leaves the entries as they are.
-/

namespace RustyImap.Config

open RustyImap.LabelledRuns

/-! ## One call -/

/-- What the store holds under each key. -/
abbrev Entries := String → Option String

/-- The operations of one call that fail, with their errors. -/
structure Faults where
  get : Option ConfigError := none
  setNew : Option ConfigError := none
  setLegacy : Option ConfigError := none

def Entries.getPassword (entries : Entries) (fault : Option ConfigError) (account : String) :
    Except ConfigError (Option String) :=
  match fault with
  | some e => .error e
  | none => .ok (entries account)

def Entries.setPassword (entries : Entries) (fault : Option ConfigError)
    (account password : String) : Except ConfigError Entries :=
  match fault with
  | some e => .error e
  | none => .ok (Function.update entries account (some password))

/-- The answer of a call, with the entries that it leaves. -/
def migrateOne (faults : Faults) (entries : Entries) (login : Login) :
    Except ConfigError Bool × Entries :=
  match entries.getPassword faults.get login.legacyKey with
  | .error e => (.error e, entries)
  | .ok none => (.ok false, entries)
  | .ok (some password) =>
      match entries.setPassword faults.setNew login.key password with
      | .error e => (.error e, entries)
      | .ok entries =>
          -- there is no delete: an empty password counts as none
          match entries.setPassword faults.setLegacy login.legacyKey "" with
          | .error e => (.error e, entries)
          | .ok entries => (.ok true, entries)

structure MigrateCall where
  login : Login
  faults : Faults := {}

def migrateStep (entries : Entries) (call : MigrateCall) : Option Entries :=
  some (migrateOne call.faults entries call.login).2

/-- The entries as `resolve_credential` reads them. -/
def Entries.store (entries : Entries) : CredentialStore String := ⟨fun key => .ok (entries key)⟩

/-! ## Where a password comes from -/

/-- There is a password under the key. -/
def Entries.holds (entries : Entries) (key : String) : Bool :=
  (entries key).any fun password => !password.isEmpty

/-- The key that an account's password is read from. -/
def Entries.source (entries : Entries) (login : Login) : Option String :=
  if entries.holds login.key then some login.key
  else if entries.holds login.legacyKey then some login.legacyKey
  else none

def Entries.password (entries : Entries) (login : Login) : Option String :=
  (entries.source login).bind entries

theorem holds_iff {entries : Entries} {key : String} :
    entries.holds key = true ↔ ∃ password, entries key = some password ∧ password ≠ "" := by
  unfold Entries.holds
  rcases entries key with _ | password
  · simp
  · simp

theorem probe_store (entries : Entries) (key : String) :
    probe plain entries.store key =
      if entries.holds key then .found ((entries key).getD "") else .missing := by
  unfold probe Entries.holds
  rcases hentry : entries key with _ | password
  · simp [Entries.store, hentry]
  · rcases hempty : password.isEmpty with _ | _ <;> simp [Entries.store, hentry, plain, hempty]

/-- Resolution in keyring-only mode reads the entry at the source. -/
theorem resolveCredential_keyringOnly_iff (sha256 : String → List UInt8)
    (env : String → Option String) (entries : Entries) (login : Login) (protocol : Protocol)
    (password : String) :
    (∃ source, resolveCredential plain sha256 env entries.store login.id login.username
        login.host ⟨.keyringOnly, protocol⟩ = .ok (password, source)) ↔
      entries.password login = some password := by
  unfold resolveCredential Entries.password Entries.source
  rw [probe_store, probe_store, ← Login.key, ← Login.legacyKey]
  rcases hnew : entries.holds login.key with _ | _
  · rcases hlegacy : entries.holds login.legacyKey with _ | _
    · simp [resolveWithoutKeyring]
    · obtain ⟨held, hheld, -⟩ := holds_iff.mp hlegacy
      simp [hheld]
  · obtain ⟨held, hheld, -⟩ := holds_iff.mp hnew
    simp [hheld]

/-! ## What a call does to the entries -/

theorem legacyKey_eq_of_key_eq {a b : Login} (h : a.key = b.key) : a.legacyKey = b.legacyKey := by
  have hid := id_eq_of_key_eq h
  have hlists := congrArg String.toList h
  rw [key_toList, key_toList, hid, List.append_cancel_left_eq, List.cons.injEq] at hlists
  apply String.toList_inj.mp
  rw [legacyKey_toList, legacyKey_toList]
  exact hlists.2

theorem key_ne_legacyKey (login : Login) : login.key ≠ login.legacyKey := by
  intro h
  have hlengths := congrArg (fun s => s.toList.length) h
  simp only [key_toList, legacyKey_toList, List.length_append, List.length_cons] at hlengths
  omega

/-- A call leaves the entries, or copies the password, and then may empty the legacy
    entry. -/
theorem migrateOne_cases (faults : Faults) (entries : Entries) (login : Login) :
    (migrateOne faults entries login).2 = entries ∨
      ∃ password, entries login.legacyKey = some password ∧
        ((migrateOne faults entries login).2 =
            Function.update entries login.key (some password) ∨
          (migrateOne faults entries login).2 =
            Function.update (Function.update entries login.key (some password))
              login.legacyKey (some "")) := by
  unfold migrateOne Entries.getPassword Entries.setPassword
  rcases faults.get with _ | e
  · rcases hlegacy : entries login.legacyKey with _ | password
    · exact .inl rfl
    · rcases faults.setNew with _ | e
      · rcases faults.setLegacy with _ | e
        · exact .inr ⟨password, rfl, .inr rfl⟩
        · exact .inr ⟨password, rfl, .inl rfl⟩
      · exact .inl rfl
  · exact .inl rfl

/-- A call that succeeds has done all of it. -/
theorem migrateOne_ok {faults : Faults} {entries after : Entries} {login : Login} {migrated : Bool}
    (h : migrateOne faults entries login = (.ok migrated, after)) :
    (entries login.legacyKey = none ∧ after = entries) ∨
      ∃ password, entries login.legacyKey = some password ∧
        after = Function.update (Function.update entries login.key (some password))
          login.legacyKey (some "") := by
  obtain ⟨get, setNew, setLegacy⟩ := faults
  unfold migrateOne Entries.getPassword Entries.setPassword at h
  rcases get with _ | e
  · rcases hlegacy : entries login.legacyKey with _ | password
    · simp only [hlegacy] at h
      exact .inl ⟨rfl, (Prod.mk.inj h).2.symm⟩
    · rcases setNew with _ | e
      · rcases setLegacy with _ | e
        · simp only [hlegacy] at h
          exact .inr ⟨password, rfl, (Prod.mk.inj h).2.symm⟩
        · simp [hlegacy] at h
      · simp [hlegacy] at h
  · simp at h

/-! ## Harmless calls -/

/-- The legacy entry is absent, or the account has no other password under its own key
    and no other account takes its password from the legacy entry. -/
def Harmless (accounts : List Login) (entries : Entries) (call : MigrateCall) : Prop :=
  entries call.login.legacyKey = none ∨
    ((entries.holds call.login.key = true →
        entries call.login.key = entries call.login.legacyKey) ∧
      ∀ other ∈ accounts, other.key ≠ call.login.key →
        entries.source other ≠ some call.login.legacyKey)

theorem holds_congr {entries after : Entries} {key : String} (h : after key = entries key) :
    after.holds key = entries.holds key := by
  unfold Entries.holds
  rw [h]

theorem password_of_holds {entries : Entries} {login : Login} (h : entries.holds login.key = true) :
    entries.password login = entries login.key := by
  simp only [Entries.password, Entries.source, h, if_true, Option.bind_some]

theorem password_of_legacy {entries : Entries} {login : Login}
    (hnew : entries.holds login.key = false) (hlegacy : entries.holds login.legacyKey = true) :
    entries.password login = entries login.legacyKey := by
  simp only [Entries.password, Entries.source, hnew, hlegacy, if_true, Option.bind_some,
    Bool.false_eq_true, if_false]

/-- A password comes from one of the two keys, and it is not empty. -/
theorem password_cases {entries : Entries} {login : Login} {password : String}
    (h : entries.password login = some password) :
    password ≠ "" ∧
      ((entries.source login = some login.key ∧ entries login.key = some password) ∨
        (entries.holds login.key = false ∧ entries.source login = some login.legacyKey ∧
          entries login.legacyKey = some password)) := by
  have hne : ∀ key, entries.holds key = true → entries key = some password → password ≠ "" := by
    intro key hholds hread
    obtain ⟨held, hheld, hne⟩ := holds_iff.mp hholds
    rw [hread] at hheld
    rwa [Option.some.inj hheld]
  rcases hnew : entries.holds login.key with _ | _
  · rcases hlegacy : entries.holds login.legacyKey with _ | _
    · simp [Entries.password, Entries.source, hnew, hlegacy] at h
    · rw [password_of_legacy hnew hlegacy] at h
      refine ⟨hne _ hlegacy h, .inr ⟨rfl, ?_, h⟩⟩
      simp [Entries.source, hnew, hlegacy]
  · rw [password_of_holds hnew] at h
    refine ⟨hne _ hnew h, .inl ⟨?_, h⟩⟩
    simp [Entries.source, hnew]

/-- Of the two keys of the call, the namespaced one gets the password and the legacy one
    keeps it or is emptied; the rest is as before. -/
theorem migrateOne_entries {entries : Entries} {call : MigrateCall} {after : Entries}
    (h : migrateStep entries call = some after) :
    after = entries ∨ ∃ moved, entries call.login.legacyKey = some moved ∧
      after call.login.key = some moved ∧
      (after call.login.legacyKey = some moved ∨ after call.login.legacyKey = some "") ∧
      ∀ key, key ≠ call.login.key → key ≠ call.login.legacyKey → after key = entries key := by
  obtain rfl := Option.some.inj h
  have hne := key_ne_legacyKey call.login
  rcases migrateOne_cases call.faults entries call.login with hsame | ⟨moved, hmoved, hset | hset⟩
  · exact .inl hsame
  · refine .inr ⟨moved, hmoved, ?_, .inl ?_, ?_⟩
    · rw [hset, Function.update_self]
    · rw [hset, Function.update_of_ne hne.symm, hmoved]
    · intro key hkey _
      rw [hset, Function.update_of_ne hkey]
  · refine .inr ⟨moved, hmoved, ?_, .inr ?_, ?_⟩
    · rw [hset, Function.update_of_ne hne, Function.update_self]
    · rw [hset, Function.update_self]
    · intro key hkey hlegacy
      rw [hset, Function.update_of_ne hlegacy, Function.update_of_ne hkey]

/-- A harmless call takes no password away. -/
theorem password_step {accounts : List Login} {entries after : Entries} {call : MigrateCall}
    (hharmless : Harmless accounts entries call) (hstep : migrateStep entries call = some after)
    {login : Login} (hlogin : login ∈ accounts) {password : String}
    (h : entries.password login = some password) : after.password login = some password := by
  rcases migrateOne_entries hstep with rfl | ⟨moved, hmoved, hnew, hold, hrest⟩
  · exact h
  rcases hharmless with habsent | ⟨hown, hothers⟩
  · rw [hmoved] at habsent
    cases habsent
  obtain ⟨hnonempty, hcases⟩ := password_cases h
  by_cases hkey : login.key = call.login.key
  · -- the account itself: whichever key it read, the password is now under its own
    have hpassword : moved = password := by
      rcases hcases with ⟨-, hread⟩ | ⟨-, -, hread⟩
      · rw [hkey] at hread
        rw [hown (holds_iff.mpr ⟨password, hread, hnonempty⟩), hmoved] at hread
        exact Option.some.inj hread
      · rw [legacyKey_eq_of_key_eq hkey, hmoved] at hread
        exact Option.some.inj hread
    rw [← hkey, hpassword] at hnew
    rw [password_of_holds (holds_iff.mpr ⟨password, hnew, hnonempty⟩), hnew]
  · have hsource := hothers login hlogin hkey
    rcases hcases with ⟨hfrom, hread⟩ | ⟨hnone, hfrom, hread⟩
    · have hne : login.key ≠ call.login.legacyKey := fun heq => hsource (heq ▸ hfrom)
      have hkept : after login.key = some password := by rw [hrest _ hkey hne, hread]
      rw [password_of_holds (holds_iff.mpr ⟨password, hkept, hnonempty⟩), hkept]
    · have hne : login.legacyKey ≠ call.login.legacyKey := fun heq => hsource (heq ▸ hfrom)
      have hnone' : after.holds login.key = false := by
        by_cases heq : login.key = call.login.legacyKey
        · rw [heq] at hnone ⊢
          rcases hold with hkept | hemptied
          · rw [holds_congr (hkept.trans hmoved.symm), hnone]
          · simp [Entries.holds, hemptied]
        · rw [holds_congr (hrest _ hkey heq), hnone]
      have hkept : after login.legacyKey = some password := by
        by_cases heq : login.legacyKey = call.login.key
        · rw [heq] at hread ⊢
          rw [hown (holds_iff.mpr ⟨password, hread, hnonempty⟩), hmoved] at hread
          rw [hnew, hread]
        · rw [hrest _ heq hne, hread]
      rw [password_of_legacy hnone' (holds_iff.mpr ⟨password, hkept, hnonempty⟩), hkept]

/-- A second call changes nothing exactly when the first found nothing to move. -/
theorem second_call_iff {faults : Faults} {entries after : Entries} {login : Login}
    {migrated : Bool} (h : migrateOne faults entries login = (.ok migrated, after)) :
    (∀ faults', (migrateOne faults' after login).2 = after) ↔
      entries.holds login.legacyKey = false := by
  have hne := key_ne_legacyKey login
  rcases migrateOne_ok h with ⟨hnone, rfl⟩ | ⟨moved, hmoved, rfl⟩
  · constructor
    · intro _
      simp [Entries.holds, hnone]
    · intro _ faults'
      rcases migrateOne_cases faults' after login with hsame | ⟨password, hsome, -⟩
      · exact hsame
      · rw [hnone] at hsome
        cases hsome
  · generalize hafter : Function.update (Function.update entries login.key (some moved))
      login.legacyKey (some "") = after
    have hlegacy : after login.legacyKey = some "" := by rw [← hafter, Function.update_self]
    have hkey : after login.key = some moved := by
      rw [← hafter, Function.update_of_ne hne, Function.update_self]
    constructor
    · intro hall
      have hsecond : (migrateOne {} after login).2 = Function.update
          (Function.update after login.key (some "")) login.legacyKey (some "") := by
        simp only [migrateOne, Entries.getPassword, Entries.setPassword, hlegacy]
      have hagain := congrFun (hall {}) login.key
      rw [hsecond, Function.update_of_ne hne, Function.update_self, hkey] at hagain
      simp [Entries.holds, hmoved, ← Option.some.inj hagain]
    · intro hempty faults'
      have hmoved' : moved = "" := by
        by_contra hnonempty
        rw [holds_iff.mpr ⟨moved, hmoved, hnonempty⟩] at hempty
        cases hempty
      have hset : Function.update after login.key (some "") = after := by
        rw [← hmoved', ← hkey, Function.update_eq_self]
      have hset' : Function.update after login.legacyKey (some "") = after := by
        rw [← hlegacy, Function.update_eq_self]
      rcases migrateOne_cases faults' after login with hsame | ⟨password, hsome, hcall⟩
      · exact hsame
      · rw [hlegacy] at hsome
        obtain rfl := Option.some.inj hsome
        rcases hcall with hcall | hcall
        · rw [hcall, hset]
        · rw [hcall, hset, hset']

/-! ## Runs of calls -/

/-- **Migration loses no password as long as every call is harmless**: in whatever order
    the calls come and whatever fails, an account that had a password has the same one.
    A second call after one that succeeded is without effect exactly when there was
    nothing to migrate. -/
theorem migration_keeps_passwords (sha256 : String → List UInt8) (env : String → Option String)
    (protocol : Protocol) (accounts : List Login) :
    (∀ entries calls after, AllSteps migrateStep (Harmless accounts) entries calls →
      run migrateStep entries calls = some after →
      ∀ login ∈ accounts, ∀ password source,
        resolveCredential plain sha256 env entries.store login.id login.username login.host
          ⟨.keyringOnly, protocol⟩ = .ok (password, source) →
        ∃ source', resolveCredential plain sha256 env after.store login.id login.username
          login.host ⟨.keyringOnly, protocol⟩ = .ok (password, source')) ∧
    (∀ faults entries after login migrated,
      migrateOne faults entries login = (.ok migrated, after) →
      ((∀ faults', (migrateOne faults' after login).2 = after) ↔
        entries.holds login.legacyKey = false)) := by
  constructor
  · intro entries calls after hcalls hrun login hlogin password source hresolved
    rw [resolveCredential_keyringOnly_iff]
    have hbefore := (resolveCredential_keyringOnly_iff sha256 env entries login protocol
      password).mp ⟨source, hresolved⟩
    have hpres : ∀ before call next, Entries.password before login = some password →
        Harmless accounts before call → migrateStep before call = some next →
        Entries.password next login = some password := by
      intro before call next hpassword hharmless hstep
      exact password_step hharmless hstep hlogin hpassword
    exact invariant_of_allSteps hpres hbefore hcalls hrun
  · intro faults entries after login migrated h
    exact second_call_iff h

/-! ## Two accounts of one mailbox -/

/-- Accounts `b` and `c`, both of `bob@h`. -/
def bobAgain : Login := ⟨letterId 'c' (by decide), "bob", "h", bob.valid⟩

/-- A keyring from before the namespaced keys. -/
def legacyOnly : Entries := fun key => if key = "bob@h" then some "pw" else none

/-- No account has both a namespaced and a legacy password, yet migrating one account
    takes the password of the other, and migrating it again its own. -/
theorem migration_loses_passwords :
    (legacyOnly bob.key = none ∧ legacyOnly bobAgain.key = none) ∧
      legacyOnly.password bob = some "pw" ∧ legacyOnly.password bobAgain = some "pw" ∧
      ((run migrateStep legacyOnly [⟨bob, {}⟩]).map fun after =>
        (after.password bob, after.password bobAgain)) = some (some "pw", none) ∧
      ((run migrateStep legacyOnly [⟨bob, {}⟩, ⟨bob, {}⟩]).map fun after =>
        after.password bob) = some none ∧
      (resolveCredential plain (fun _ => []) (fun _ => none)
        (migrateOne {} legacyOnly bob).2.store bobAgain.id bobAgain.username bobAgain.host
        ⟨.keyringOnly, .imap⟩).isOk = false := by
  decide +kernel

/-- One account, migrated once. -/
theorem migration_keeps_passwords_bob :
    AllSteps migrateStep (Harmless [bob]) legacyOnly [⟨bob, {}⟩] ∧
      ∃ source', resolveCredential plain (fun _ => []) (fun _ => none)
        (migrateOne {} legacyOnly bob).2.store bob.id bob.username bob.host
        ⟨.keyringOnly, .imap⟩ = .ok ("pw", source') := by
  have hharmless : AllSteps migrateStep (Harmless [bob]) legacyOnly [⟨bob, {}⟩] := by
    refine ⟨.inr ⟨by decide +kernel, ?_⟩, fun _ _ => trivial⟩
    intro other hmem hne
    exact absurd (congrArg Login.key (List.mem_singleton.mp hmem)) hne
  refine ⟨hharmless, ?_⟩
  exact (migration_keeps_passwords (fun _ => []) (fun _ => none) .imap [bob]).1 legacyOnly
    [⟨bob, {}⟩] _ hharmless rfl bob (List.mem_singleton_self bob) "pw" .legacyKeyring
    (by decide +kernel)

end RustyImap.Config
