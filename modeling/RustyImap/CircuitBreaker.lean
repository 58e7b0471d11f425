import Mathlib
import RustyImap.PostureMatrix

/-!
# The circuit breaker (`rimap-authz/src/breaker.rs`)

The three operations of `CircuitBreaker`, each as a function of the clock value
it reads and of the mutex-protected `Inner`.  A `Duration` is a number of
nanoseconds; the doubled cooldown is capped right after `saturating_mul`, so
the saturation is absorbed by the cap.

The lemmas after each operation say which states it can leave behind.  They
are what the interleaving arguments of `DispatchPipeline` use; none of them
unfolds an operation again.
-/

namespace RustyImap.Breaker

/-- Reasons a call may fail from the breaker's point of view. -/
inductive FailureReason where
  | connectionLost
  | auth
  | timeout
  | protocol
  | tls
deriving DecidableEq, Repr

inductive State where
  | closed
  | opened
  | halfOpen
deriving DecidableEq, Repr

structure BreakerConfig where
  errorThreshold : Nat
  window : Nat
  startingCooldown : Nat
  maxCooldown : Nat
  authStartingCooldown : Nat
  authMaxCooldown : Nat
deriving DecidableEq, Repr

def secs (n : Nat) : Nat := n * 1000000000

def BreakerConfig.defaultSpec : BreakerConfig where
  errorThreshold := 5
  window := secs 30
  startingCooldown := secs 15
  maxCooldown := secs 300
  authStartingCooldown := secs 60
  authMaxCooldown := secs 600

structure Inner where
  state : State
  failures : List Nat
  openUntil : Nat
  currentCooldown : Nat
  lastTripWasAuth : Bool
deriving DecidableEq, Repr

def Inner.new (cfg : BreakerConfig) : Inner where
  state := .closed
  failures := []
  openUntil := 0
  currentCooldown := cfg.startingCooldown
  lastTripWasAuth := false

/-- `u64::try_from(remaining.as_millis()).unwrap_or(u64::MAX)`. -/
def retryAfterMs (remaining : Nat) : Nat := min (remaining / 1000000) (2 ^ 64 - 1)

/-- Called before a tool dispatch; the clock is read under the mutex. -/
def preCall (now : Nat) (g : Inner) : Except AuthzError Unit × Inner :=
  match g.state with
  | .closed => (.ok (), g)
  | .opened =>
      if g.openUntil ≤ now then (.ok (), { g with state := .halfOpen })
      else (.error (.circuitOpen (retryAfterMs (g.openUntil - now))), g)
  | .halfOpen => (.error (.circuitOpen (retryAfterMs (g.openUntil - now))), g)

/-- `prune_expired`: pop from the front while older than the window. -/
def pruneExpired (failures : List Nat) (now window : Nat) : List Nat :=
  failures.dropWhile fun t => t < now - window

def onSuccess (cfg : BreakerConfig) (now : Nat) (g : Inner) : Inner :=
  match g.state with
  | .closed => { g with failures := pruneExpired g.failures now cfg.window }
  | .opened | .halfOpen =>
      { state := .closed
        failures := []
        openUntil := 0
        currentCooldown := cfg.startingCooldown
        lastTripWasAuth := false }

def tripOpen (cfg : BreakerConfig) (g : Inner) (now : Nat) (reason : FailureReason)
    (doubling : Bool) : Inner :=
  let isAuth := decide (reason = .auth)
  let start := if isAuth then cfg.authStartingCooldown else cfg.startingCooldown
  let cap := if isAuth then cfg.authMaxCooldown else cfg.maxCooldown
  let next := if doubling then min (g.currentCooldown * 2) cap else start
  { state := .opened
    failures := []
    openUntil := now + next
    currentCooldown := next
    lastTripWasAuth := isAuth }

/-- Called after a failed dispatch.  `now` is read before the mutex is taken. -/
def onFailure (cfg : BreakerConfig) (now : Nat) (reason : FailureReason) (g : Inner) : Inner :=
  match g.state with
  | .opened => g
  | .halfOpen => tripOpen cfg g now reason true
  | .closed =>
      if reason = .auth then tripOpen cfg g now reason false
      else
        let failures := pruneExpired g.failures now cfg.window ++ [now]
        if cfg.errorThreshold ≤ failures.length then
          tripOpen cfg { g with failures := failures } now reason false
        else { g with failures := failures }

/-! ## What each operation can leave behind -/

@[simp] theorem state_tripOpen (cfg : BreakerConfig) (g : Inner) (now : Nat)
    (reason : FailureReason) (doubling : Bool) :
    (tripOpen cfg g now reason doubling).state = .opened := rfl

@[simp] theorem openUntil_tripOpen (cfg : BreakerConfig) (g : Inner) (now : Nat)
    (reason : FailureReason) (doubling : Bool) :
    (tripOpen cfg g now reason doubling).openUntil =
      now + (tripOpen cfg g now reason doubling).currentCooldown := rfl

/-- A call is admitted in `Closed`, which changes nothing, or takes the probe
    slot of an `Open` breaker whose cooldown has passed. -/
theorem preCall_ok_cases {now : Nat} {g g' : Inner} (h : preCall now g = (.ok (), g')) :
    (g.state = .closed ∧ g' = g) ∨
      (g.state = .opened ∧ g.openUntil ≤ now ∧ g' = { g with state := .halfOpen }) := by
  unfold preCall at h
  cases hstate : g.state with
  | closed =>
      rw [hstate] at h
      exact Or.inl ⟨rfl, (Prod.mk.inj h).2.symm⟩
  | opened =>
      simp only [hstate] at h
      by_cases hle : g.openUntil ≤ now
      · rw [if_pos hle] at h
        exact Or.inr ⟨rfl, hle, (Prod.mk.inj h).2.symm⟩
      · rw [if_neg hle] at h
        simp at h
  | halfOpen =>
      simp only [hstate] at h
      simp at h

/-- A rejected call leaves the breaker as it was. -/
theorem preCall_error {now : Nat} {g g' : Inner} {e : AuthzError}
    (h : preCall now g = (.error e, g')) : g' = g := by
  unfold preCall at h
  cases hstate : g.state with
  | closed => simp [hstate] at h
  | opened =>
      simp only [hstate] at h
      by_cases hle : g.openUntil ≤ now
      · simp [hle] at h
      · rw [if_neg hle] at h
        exact (Prod.mk.inj h).2.symm
  | halfOpen =>
      simp only [hstate] at h
      exact (Prod.mk.inj h).2.symm

/-- Outside `HalfOpen`, a clock that has passed `open_until` admits. -/
theorem preCall_admits {now : Nat} {g : Inner} (hstate : g.state ≠ .halfOpen)
    (hle : g.openUntil ≤ now) : (preCall now g).1 = .ok () := by
  unfold preCall
  cases h : g.state with
  | closed => rfl
  | opened => simp [hle]
  | halfOpen => exact absurd h hstate

/-- In `HalfOpen` no call is admitted, however late the clock. -/
theorem preCall_halfOpen {now : Nat} {g : Inner} (hstate : g.state = .halfOpen) :
    (preCall now g).1 ≠ .ok () := by
  simp [preCall, hstate]

/-- A success report always ends in `Closed`, from whatever state. -/
@[simp] theorem state_onSuccess (cfg : BreakerConfig) (now : Nat) (g : Inner) :
    (onSuccess cfg now g).state = .closed := by
  cases h : g.state <;> simp [onSuccess, h]

/-- A failure report in `Open` is ignored. -/
theorem onFailure_opened {cfg : BreakerConfig} {now : Nat} {reason : FailureReason} {g : Inner}
    (h : g.state = .opened) : onFailure cfg now reason g = g := by
  simp [onFailure, h]

/-- A failure report outside `Open` either leaves `Closed` in place or trips,
    and then `open_until` is the reporter's clock reading plus the cooldown. -/
theorem onFailure_cases (cfg : BreakerConfig) (now : Nat) (reason : FailureReason) {g : Inner}
    (h : g.state ≠ .opened) :
    ((onFailure cfg now reason g).state = .closed ∧ g.state = .closed) ∨
      ((onFailure cfg now reason g).state = .opened ∧
        (onFailure cfg now reason g).openUntil =
          now + (onFailure cfg now reason g).currentCooldown) := by
  unfold onFailure
  cases hstate : g.state with
  | opened => exact absurd hstate h
  | halfOpen => exact Or.inr ⟨rfl, rfl⟩
  | closed =>
      by_cases hauth : reason = .auth
      · simp [hauth]
      · by_cases hlen : cfg.errorThreshold ≤
            (pruneExpired g.failures now cfg.window ++ [now]).length
        · simp only [if_neg hauth, if_pos hlen]
          exact Or.inr ⟨rfl, rfl⟩
        · simp only [if_neg hauth, if_neg hlen]
          exact Or.inl ⟨trivial, trivial⟩

theorem onFailure_ne_halfOpen (cfg : BreakerConfig) (now : Nat) (reason : FailureReason)
    (g : Inner) : (onFailure cfg now reason g).state ≠ .halfOpen := by
  by_cases h : g.state = .opened
  · rw [onFailure_opened h, h]
    decide
  · rcases onFailure_cases cfg now reason h with ⟨hclosed, -⟩ | ⟨hopened, -⟩
    · rw [hclosed]; decide
    · rw [hopened]; decide

end RustyImap.Breaker
