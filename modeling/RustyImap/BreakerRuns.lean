import RustyImap.CircuitBreaker
import RustyImap.SlidingWindow

/-!
# Runs of the circuit breaker (`rimap-authz/src/breaker.rs`)

A run is the list of calls in the order in which they take the mutex, each with
the reading its clock gives.  Two records are kept beside the breaker, as
bookkeeping for the statements only: the non-auth failures reported since
`Closed` was last entered, and the trips since the last reported success.

The deque follows the first record through the cutoff of the sliding window
(`RustyImap.SlidingWindow`).  The cooldown shared by the two failure classes is
that of the newest trip, and each failed probe doubles it up to the cap of the
class that failed.
-/

namespace RustyImap.Breaker

open SlidingWindow (Tracks)

/-! ## The calls and the two records -/

inductive Op where
  | preCall (now : Nat)
  | onSuccess (now : Nat)
  | onFailure (now : Nat) (reason : FailureReason)
deriving DecidableEq, Repr

def Op.now : Op → Nat
  | .preCall now => now
  | .onSuccess now => now
  | .onFailure now _ => now

def Op.apply (cfg : BreakerConfig) (op : Op) (g : Inner) : Inner :=
  match op with
  | .preCall now => (Breaker.preCall now g).2
  | .onSuccess now => Breaker.onSuccess cfg now g
  | .onFailure now reason => Breaker.onFailure cfg now reason g

/-- The stamp that a call puts on record: that of a non-auth failure. -/
def Op.nonAuthFailure : Op → List Nat
  | .onFailure now reason => if reason = .auth then [] else [now]
  | .preCall _ | .onSuccess _ => []

theorem eq_now_of_mem_nonAuthFailure {op : Op} {stamp : Nat}
    (h : stamp ∈ op.nonAuthFailure) : stamp = op.now := by
  cases op with
  | preCall now => simp [Op.nonAuthFailure] at h
  | onSuccess now => simp [Op.nonAuthFailure] at h
  | onFailure now reason =>
      by_cases hauth : reason = .auth
      · simp [Op.nonAuthFailure, hauth] at h
      · simpa [Op.nonAuthFailure, hauth, Op.now] using h

/-- What caused a trip, and for how long it opened the breaker. -/
structure Trip where
  reason : FailureReason
  cooldown : Nat
deriving DecidableEq, Repr

/-- The breaker with its two records; the trips stand newest first. -/
structure Traced where
  inner : Inner
  reported : List Nat
  trips : List Trip
deriving DecidableEq, Repr

def Traced.new (cfg : BreakerConfig) : Traced := ⟨Inner.new cfg, [], []⟩

/-- The trip that the report of a failure causes, if it causes one. -/
def tripBy (cfg : BreakerConfig) (now : Nat) (reason : FailureReason) (g : Inner) :
    Option Trip :=
  let after := onFailure cfg now reason g
  if g.state ≠ .opened ∧ after.state = .opened then some ⟨reason, after.openUntil - now⟩
  else none

def Traced.step (cfg : BreakerConfig) (t : Traced) (op : Op) : Traced where
  inner := op.apply cfg t.inner
  reported :=
    if t.inner.state ≠ .closed ∧ (op.apply cfg t.inner).state = .closed then []
    else t.reported ++ op.nonAuthFailure
  trips :=
    match op with
    | .preCall _ => t.trips
    | .onSuccess _ => []
    | .onFailure now reason => (tripBy cfg now reason t.inner).toList ++ t.trips

/-- A new breaker after a run of calls. -/
def trace (cfg : BreakerConfig) (ops : List Op) : Traced :=
  ops.foldl (Traced.step cfg) (Traced.new cfg)

theorem trace_concat (cfg : BreakerConfig) (ops : List Op) (op : Op) :
    trace cfg (ops ++ [op]) = (trace cfg ops).step cfg op := by
  simp [trace]

/-- The clock readings of the calls do not decrease. -/
def ClockMonotone (ops : List Op) : Prop := (ops.map Op.now).Pairwise (· ≤ ·)

theorem ClockMonotone.concat {ops : List Op} {op : Op} (h : ClockMonotone (ops ++ [op])) :
    ClockMonotone ops ∧ ∀ earlier ∈ ops, earlier.now ≤ op.now := by
  unfold ClockMonotone at h
  rw [List.map_append, List.pairwise_append] at h
  obtain ⟨hops, -, hlast⟩ := h
  refine ⟨hops, fun earlier hearlier => ?_⟩
  exact hlast _ (List.mem_map_of_mem hearlier) _ (by simp)

/-! ## What the report of a failure does -/

/-- A report in `Open` is ignored; a failed probe trips; in `Closed` an `Auth`
    failure trips and any other one is counted, and trips at the threshold. -/
theorem onFailure_report (cfg : BreakerConfig) (now : Nat) (reason : FailureReason)
    (g : Inner) :
    (g.state = .opened ∧ onFailure cfg now reason g = g) ∨
      (g.state = .halfOpen ∧ onFailure cfg now reason g = tripOpen cfg g now reason true) ∨
      (g.state = .closed ∧ reason = .auth ∧
        onFailure cfg now reason g = tripOpen cfg g now reason false) ∨
      (g.state = .closed ∧ reason ≠ .auth ∧
        cfg.errorThreshold ≤ (pruneExpired g.failures now cfg.window ++ [now]).length ∧
        onFailure cfg now reason g = tripOpen cfg g now reason false) ∨
      (g.state = .closed ∧ reason ≠ .auth ∧
        ¬ cfg.errorThreshold ≤ (pruneExpired g.failures now cfg.window ++ [now]).length ∧
        onFailure cfg now reason g =
          { g with failures := pruneExpired g.failures now cfg.window ++ [now] }) := by
  cases hstate : g.state with
  | opened => exact Or.inl ⟨rfl, onFailure_opened hstate⟩
  | halfOpen => exact Or.inr (Or.inl ⟨rfl, by simp only [onFailure, hstate]⟩)
  | closed =>
      by_cases hauth : reason = .auth
      · exact Or.inr (Or.inr (Or.inl ⟨rfl, hauth, by simp only [onFailure, hstate, if_pos hauth]⟩))
      · by_cases hlen : cfg.errorThreshold ≤
            (pruneExpired g.failures now cfg.window ++ [now]).length
        · refine Or.inr (Or.inr (Or.inr (Or.inl ⟨rfl, hauth, hlen, ?_⟩)))
          simp only [onFailure, hstate, if_neg hauth, if_pos hlen]
          rfl
        · refine Or.inr (Or.inr (Or.inr (Or.inr ⟨rfl, hauth, hlen, ?_⟩)))
          simp only [onFailure, hstate, if_neg hauth, if_neg hlen]

/-! ## The deque and the sliding window -/

/-- The deque of a `Closed` breaker follows the record; outside `Closed` it is
    empty. -/
structure WindowInv (cfg : BreakerConfig) (clock : Nat) (t : Traced) : Prop where
  tracks : t.inner.state = .closed →
    Tracks t.reported (clock - cfg.window) t.inner.failures
  stamps : ∀ stamp ∈ t.reported, stamp ≤ clock
  cleared : t.inner.state ≠ .closed → t.inner.failures = []

theorem windowInv_new (cfg : BreakerConfig) : WindowInv cfg 0 (Traced.new cfg) where
  tracks := fun _ => Tracks.nil _
  stamps := by simp [Traced.new]
  cleared := fun h => absurd rfl h

theorem WindowInv.preCall {cfg : BreakerConfig} {clock now : Nat} {t : Traced}
    (h : WindowInv cfg clock t) (hclock : clock ≤ now) :
    WindowInv cfg now (t.step cfg (.preCall now)) := by
  have hwindow : clock - cfg.window ≤ now - cfg.window := Nat.sub_le_sub_right hclock _
  have hstamps : ∀ stamp ∈ t.reported, stamp ≤ now :=
    fun stamp hstamp => Nat.le_trans (h.stamps stamp hstamp) hclock
  have hstep : ∀ g', (Breaker.preCall now t.inner).2 = g' →
      g' = t.inner ∨ (t.inner.state = .opened ∧ g' = { t.inner with state := .halfOpen }) := by
    intro g' hg'
    cases hresult : (Breaker.preCall now t.inner).1 with
    | ok _ =>
        rcases preCall_ok_cases (Prod.ext hresult hg') with ⟨-, hsame⟩ | ⟨hopened, -, hprobe⟩
        · exact Or.inl hsame
        · exact Or.inr ⟨hopened, hprobe⟩
    | error e => exact Or.inl (preCall_error (Prod.ext hresult hg'))
  rcases hstep _ rfl with hsame | ⟨hopened, hprobe⟩
  · have hinner : (t.step cfg (.preCall now)).inner = t.inner := hsame
    have hreported : (t.step cfg (.preCall now)).reported = t.reported := by
      have happly : (Op.preCall now).apply cfg t.inner = t.inner := hsame
      simp only [Traced.step, happly, Op.nonAuthFailure, List.append_nil]
      rw [if_neg (fun hboth => hboth.1 hboth.2)]
    refine ⟨?_, ?_, ?_⟩
    · rw [hinner, hreported]
      exact fun hclosed => (h.tracks hclosed).mono hwindow
    · rw [hreported]
      exact hstamps
    · rw [hinner]
      exact h.cleared
  · have hinner : (t.step cfg (.preCall now)).inner = { t.inner with state := .halfOpen } :=
      hprobe
    have hreported : (t.step cfg (.preCall now)).reported = t.reported := by
      have happly : (Op.preCall now).apply cfg t.inner = { t.inner with state := .halfOpen } :=
        hprobe
      simp [Traced.step, happly, Op.nonAuthFailure]
    refine ⟨?_, ?_, ?_⟩
    · rw [hinner]
      exact fun hclosed => State.noConfusion hclosed
    · rw [hreported]
      exact hstamps
    · rw [hinner]
      exact fun _ => h.cleared (by rw [hopened]; decide)

theorem WindowInv.onSuccess {cfg : BreakerConfig} {clock now : Nat} {t : Traced}
    (h : WindowInv cfg clock t) (hclock : clock ≤ now) :
    WindowInv cfg now (t.step cfg (.onSuccess now)) := by
  have hwindow : clock - cfg.window ≤ now - cfg.window := Nat.sub_le_sub_right hclock _
  have hafter : (t.step cfg (.onSuccess now)).inner.state = .closed :=
    state_onSuccess cfg now t.inner
  by_cases hclosed : t.inner.state = .closed
  · have hinner : (t.step cfg (.onSuccess now)).inner =
        { t.inner with failures := pruneExpired t.inner.failures now cfg.window } := by
      simp only [Traced.step, Op.apply, Breaker.onSuccess, hclosed]
    have hreported : (t.step cfg (.onSuccess now)).reported = t.reported := by
      simp [Traced.step, Op.nonAuthFailure, hclosed]
    refine ⟨?_, ?_, fun hnot => absurd hafter hnot⟩
    · rw [hinner, hreported]
      exact fun _ => (h.tracks hclosed).prune hwindow
    · rw [hreported]
      exact fun stamp hstamp => Nat.le_trans (h.stamps stamp hstamp) hclock
  · have hreported : (t.step cfg (.onSuccess now)).reported = [] :=
      if_pos ⟨hclosed, hafter⟩
    have hfailures : (t.step cfg (.onSuccess now)).inner.failures = [] := by
      cases hstate : t.inner.state with
      | closed => exact absurd hstate hclosed
      | opened => simp only [Traced.step, Op.apply, Breaker.onSuccess, hstate]
      | halfOpen => simp only [Traced.step, Op.apply, Breaker.onSuccess, hstate]
    refine ⟨?_, ?_, fun hnot => absurd hafter hnot⟩
    · rw [hreported, hfailures]
      exact fun _ => Tracks.nil _
    · rw [hreported]
      simp

theorem WindowInv.onFailure {cfg : BreakerConfig} {clock now : Nat} {reason : FailureReason}
    {t : Traced} (h : WindowInv cfg clock t) (hclock : clock ≤ now) :
    WindowInv cfg now (t.step cfg (.onFailure now reason)) := by
  have hwindow : clock - cfg.window ≤ now - cfg.window := Nat.sub_le_sub_right hclock _
  have hinner : (t.step cfg (.onFailure now reason)).inner =
      Breaker.onFailure cfg now reason t.inner := rfl
  have hstamps : ∀ stamp ∈ (t.step cfg (.onFailure now reason)).reported, stamp ≤ now := by
    intro stamp hstamp
    have hmem : stamp ∈ t.reported ++ (Op.onFailure now reason).nonAuthFailure := by
      unfold Traced.step at hstamp
      dsimp only at hstamp
      split at hstamp
      · simp at hstamp
      · exact hstamp
    rcases List.mem_append.mp hmem with hold | hnew
    · exact Nat.le_trans (h.stamps stamp hold) hclock
    · exact Nat.le_of_eq (eq_now_of_mem_nonAuthFailure hnew)
  refine ⟨?_, hstamps, ?_⟩
  · intro hclosed
    rw [hinner] at hclosed ⊢
    rcases onFailure_report cfg now reason t.inner with
      ⟨hopened, hsame⟩ | ⟨-, htrip⟩ | ⟨-, -, htrip⟩ | ⟨-, -, -, htrip⟩ | ⟨hstate, hauth, -, hcount⟩
    · rw [hsame, hopened] at hclosed
      exact State.noConfusion hclosed
    · rw [htrip, state_tripOpen] at hclosed
      exact State.noConfusion hclosed
    · rw [htrip, state_tripOpen] at hclosed
      exact State.noConfusion hclosed
    · rw [htrip, state_tripOpen] at hclosed
      exact State.noConfusion hclosed
    · have hreported : (t.step cfg (.onFailure now reason)).reported =
          t.reported ++ [now] := by
        simp [Traced.step, Op.nonAuthFailure, hstate, hauth]
      rw [hreported, hcount]
      refine ((h.tracks hstate).prune hwindow).push ?_ (Nat.sub_le _ _)
      exact fun stamp hstamp => Nat.le_trans (h.stamps stamp hstamp) hclock
  · intro hnot
    rw [hinner] at hnot ⊢
    rcases onFailure_report cfg now reason t.inner with
      ⟨hopened, hsame⟩ | ⟨-, htrip⟩ | ⟨-, -, htrip⟩ | ⟨-, -, -, htrip⟩ | ⟨hstate, -, -, hcount⟩
    · rw [hsame]
      exact h.cleared (by rw [hopened]; decide)
    · rw [htrip]
      rfl
    · rw [htrip]
      rfl
    · rw [htrip]
      rfl
    · rw [hcount] at hnot
      exact absurd hstate hnot

theorem WindowInv.step {cfg : BreakerConfig} {clock : Nat} {t : Traced} {op : Op}
    (h : WindowInv cfg clock t) (hclock : clock ≤ op.now) :
    WindowInv cfg op.now (t.step cfg op) := by
  cases op with
  | preCall now => exact h.preCall hclock
  | onSuccess now => exact h.onSuccess hclock
  | onFailure now reason => exact h.onFailure hclock

theorem WindowInv.mono {cfg : BreakerConfig} {clock clock' : Nat} {t : Traced}
    (h : WindowInv cfg clock t) (hclock : clock ≤ clock') : WindowInv cfg clock' t where
  tracks := fun hclosed => (h.tracks hclosed).mono (Nat.sub_le_sub_right hclock _)
  stamps := fun stamp hstamp => Nat.le_trans (h.stamps stamp hstamp) hclock
  cleared := h.cleared

/-- The invariant holds after every run, at every later reading of the clock. -/
theorem windowInv_trace (cfg : BreakerConfig) {ops : List Op} (hmono : ClockMonotone ops)
    {now : Nat} (hnow : ∀ op ∈ ops, op.now ≤ now) : WindowInv cfg now (trace cfg ops) := by
  induction ops using List.reverseRecOn generalizing now with
  | nil => exact (windowInv_new cfg).mono (Nat.zero_le now)
  | append_singleton ops op ih =>
      obtain ⟨hops, hlast⟩ := hmono.concat
      rw [trace_concat]
      exact ((ih hops hlast).step (Nat.le_refl _)).mono (hnow op (by simp))

/-- In `Closed` a non-auth failure trips exactly when the pruned deque, with the
    new stamp, has reached the threshold. -/
theorem onFailure_trips_iff (cfg : BreakerConfig) (now : Nat) {reason : FailureReason}
    {g : Inner} (hclosed : g.state = .closed) (hreason : reason ≠ .auth) :
    (onFailure cfg now reason g).state = .opened ↔
      cfg.errorThreshold ≤ (pruneExpired g.failures now cfg.window ++ [now]).length := by
  by_cases hlen : cfg.errorThreshold ≤ (pruneExpired g.failures now cfg.window ++ [now]).length
  · simp only [onFailure, hclosed, if_neg hreason, if_pos hlen, state_tripOpen]
    exact ⟨fun _ => hlen, fun _ => trivial⟩
  · simp only [onFailure, hclosed, if_neg hreason, if_neg hlen]
    exact ⟨fun h => State.noConfusion h, fun h => absurd h hlen⟩

/-- Four timeouts, of which the first is too old when the sixth call fails. -/
def fourTimeouts : List Op :=
  [.onFailure 0 .timeout, .onFailure (secs 10) .timeout, .onSuccess (secs 20),
    .onFailure (secs 25) .timeout, .onFailure (secs 31) .timeout]

def classStart (cfg : BreakerConfig) (reason : FailureReason) : Nat :=
  if reason = .auth then cfg.authStartingCooldown else cfg.startingCooldown

def classCap (cfg : BreakerConfig) (reason : FailureReason) : Nat :=
  if reason = .auth then cfg.authMaxCooldown else cfg.maxCooldown

/-- Two failures with the same start and cap. -/
def sameClass (reason reason' : FailureReason) : Bool :=
  decide (reason = .auth) == decide (reason' = .auth)

theorem classCap_of_sameClass (cfg : BreakerConfig) {reason reason' : FailureReason}
    (h : sameClass reason reason' = true) : classCap cfg reason = classCap cfg reason' := by
  unfold classCap
  by_cases hreason : reason = .auth <;> by_cases hreason' : reason' = .auth <;>
    simp_all [sameClass]

theorem currentCooldown_tripOpen (cfg : BreakerConfig) (g : Inner) (now : Nat)
    (reason : FailureReason) (doubling : Bool) :
    (tripOpen cfg g now reason doubling).currentCooldown =
      if doubling then min (g.currentCooldown * 2) (classCap cfg reason)
      else classStart cfg reason := by
  by_cases hauth : reason = .auth <;> simp [tripOpen, classCap, classStart, hauth]

/-- A trip from `Closed` opens for the start of its class, a failed probe for
    twice the cooldown before, up to the cap of its class. -/
theorem tripBy_eq_some {cfg : BreakerConfig} {now : Nat} {reason : FailureReason} {g : Inner}
    {trip : Trip} (h : tripBy cfg now reason g = some trip) :
    trip.reason = reason ∧ (onFailure cfg now reason g).currentCooldown = trip.cooldown ∧
      (onFailure cfg now reason g).state = .opened ∧
      ((g.state = .closed ∧ trip.cooldown = classStart cfg reason) ∨
        (g.state = .halfOpen ∧
          trip.cooldown = min (g.currentCooldown * 2) (classCap cfg reason))) := by
  unfold tripBy at h
  dsimp only at h
  split at h
  case isFalse => simp at h
  case isTrue hboth =>
    obtain rfl := Option.some.inj h
    refine ⟨rfl, ?_, hboth.2, ?_⟩
    · rcases onFailure_cases cfg now reason hboth.1 with ⟨hclosed, -⟩ | ⟨-, huntil⟩
      · rw [hclosed] at hboth
        exact State.noConfusion hboth.2
      · rw [huntil, Nat.add_sub_cancel_left]
    · dsimp only
      rcases onFailure_report cfg now reason g with
        ⟨hopened, -⟩ | ⟨hstate, htrip⟩ | ⟨hstate, -, htrip⟩ | ⟨hstate, -, -, htrip⟩ |
          ⟨hstate, -, -, hcount⟩
      · exact absurd hopened hboth.1
      · refine Or.inr ⟨hstate, ?_⟩
        rw [htrip, openUntil_tripOpen, Nat.add_sub_cancel_left, currentCooldown_tripOpen]
        rfl
      · refine Or.inl ⟨hstate, ?_⟩
        rw [htrip, openUntil_tripOpen, Nat.add_sub_cancel_left, currentCooldown_tripOpen]
        rfl
      · refine Or.inl ⟨hstate, ?_⟩
        rw [htrip, openUntil_tripOpen, Nat.add_sub_cancel_left, currentCooldown_tripOpen]
        rfl
      · rw [hcount] at hboth
        rw [hstate] at hboth
        exact State.noConfusion hboth.2

/-- A report that does not trip leaves the state and the cooldown alone. -/
theorem tripBy_eq_none {cfg : BreakerConfig} {now : Nat} {reason : FailureReason} {g : Inner}
    (h : tripBy cfg now reason g = none) :
    (onFailure cfg now reason g).state = g.state ∧
      (onFailure cfg now reason g).currentCooldown = g.currentCooldown := by
  have hstay : ¬ (g.state ≠ .opened ∧ (onFailure cfg now reason g).state = .opened) := by
    intro hboth
    simp [tripBy, hboth] at h
  rcases onFailure_report cfg now reason g with
    ⟨-, hsame⟩ | ⟨hstate, htrip⟩ | ⟨hstate, -, htrip⟩ | ⟨hstate, -, -, htrip⟩ | ⟨-, -, -, hcount⟩
  · rw [hsame]
    exact ⟨rfl, rfl⟩
  · exact absurd ⟨by rw [hstate]; decide, by rw [htrip]; rfl⟩ hstay
  · exact absurd ⟨by rw [hstate]; decide, by rw [htrip]; rfl⟩ hstay
  · exact absurd ⟨by rw [hstate]; decide, by rw [htrip]; rfl⟩ hstay
  · rw [hcount]
    exact ⟨rfl, rfl⟩

/-- Each class cap is at most twice the other: a cooldown cut by one cap is
    restored by one doubling under the other. -/
def CapsWithinDoubling (cfg : BreakerConfig) : Prop :=
  cfg.maxCooldown ≤ 2 * cfg.authMaxCooldown ∧ cfg.authMaxCooldown ≤ 2 * cfg.maxCooldown

theorem CapsWithinDoubling.le_double {cfg : BreakerConfig} (h : CapsWithinDoubling cfg)
    (reason reason' : FailureReason) : classCap cfg reason ≤ 2 * classCap cfg reason' := by
  obtain ⟨hmax, hauth⟩ := h
  unfold classCap
  split <;> split <;> omega

/-- The configuration's starts lie under their caps. -/
structure StartsUnderCaps (cfg : BreakerConfig) : Prop where
  nonAuth : cfg.startingCooldown ≤ cfg.maxCooldown
  auth : cfg.authStartingCooldown ≤ cfg.authMaxCooldown

theorem StartsUnderCaps.start_le_cap {cfg : BreakerConfig} (h : StartsUnderCaps cfg)
    (reason : FailureReason) : classStart cfg reason ≤ classCap cfg reason := by
  unfold classStart classCap
  split
  · exact h.auth
  · exact h.nonAuth

theorem min_starts_le (cfg : BreakerConfig) (reason : FailureReason) :
    min cfg.startingCooldown cfg.authStartingCooldown ≤ classStart cfg reason := by
  unfold classStart
  split
  · exact Nat.min_le_right _ _
  · exact Nat.min_le_left _ _

/-- In `Closed` no trip is on record; elsewhere the cooldown is that of the
    newest trip. -/
structure CooldownInv (cfg : BreakerConfig) (t : Traced) : Prop where
  closed : t.inner.state = .closed → t.trips = []
  newest : t.inner.state ≠ .closed →
    ∃ last, t.trips.head? = some last ∧ t.inner.currentCooldown = last.cooldown
  floor : ∀ trip ∈ t.trips, min cfg.startingCooldown cfg.authStartingCooldown ≤ trip.cooldown
  cap : ∀ trip ∈ t.trips, trip.cooldown ≤ classCap cfg trip.reason
  restored : CapsWithinDoubling cfg →
    ∀ trip ∈ t.trips, trip.cooldown ≤ t.inner.currentCooldown * 2

theorem cooldownInv_new (cfg : BreakerConfig) : CooldownInv cfg (Traced.new cfg) where
  closed := fun _ => rfl
  newest := fun h => absurd rfl h
  floor := by simp [Traced.new]
  cap := by simp [Traced.new]
  restored := by simp [Traced.new]

/-- The state may move between `Open` and `HalfOpen` as long as the cooldown and
    the record stay. -/
theorem CooldownInv.of_same {cfg : BreakerConfig} {t t' : Traced} (h : CooldownInv cfg t)
    (hclosed : t'.inner.state = .closed ↔ t.inner.state = .closed)
    (hcooldown : t'.inner.currentCooldown = t.inner.currentCooldown)
    (htrips : t'.trips = t.trips) : CooldownInv cfg t' where
  closed := fun hstate => htrips.trans (h.closed (hclosed.mp hstate))
  newest := by
    rw [htrips, hcooldown]
    exact fun hstate => h.newest fun hstate' => hstate (hclosed.mpr hstate')
  floor := by rw [htrips]; exact h.floor
  cap := by rw [htrips]; exact h.cap
  restored := by rw [htrips, hcooldown]; exact h.restored

theorem CooldownInv.preCall {cfg : BreakerConfig} {t : Traced} (h : CooldownInv cfg t)
    (now : Nat) : CooldownInv cfg (t.step cfg (.preCall now)) := by
  cases hresult : (Breaker.preCall now t.inner).1 with
  | error e =>
      have hsame : (t.step cfg (.preCall now)).inner = t.inner :=
        preCall_error (Prod.ext hresult rfl)
      exact h.of_same (by rw [hsame]) (by rw [hsame]) rfl
  | ok _ =>
      rcases preCall_ok_cases (Prod.ext hresult rfl) with ⟨-, hsame⟩ | ⟨hopened, -, hprobe⟩
      · have hinner : (t.step cfg (.preCall now)).inner = t.inner := hsame
        exact h.of_same (by rw [hinner]) (by rw [hinner]) rfl
      · have hinner : (t.step cfg (.preCall now)).inner =
            { t.inner with state := .halfOpen } := hprobe
        refine h.of_same ?_ (by rw [hinner]) rfl
        rw [hinner, hopened]
        exact ⟨fun hhalf => State.noConfusion hhalf, fun hopen => State.noConfusion hopen⟩

theorem CooldownInv.onSuccess {cfg : BreakerConfig} (t : Traced) (now : Nat) :
    CooldownInv cfg (t.step cfg (.onSuccess now)) where
  closed := fun _ => rfl
  newest := fun hstate => absurd (state_onSuccess cfg now t.inner) hstate
  floor := by simp [Traced.step]
  cap := by simp [Traced.step]
  restored := by simp [Traced.step]

/-- What is known of a trip about to happen. -/
structure TripBounds (cfg : BreakerConfig) (t : Traced) (reason : FailureReason)
    (trip : Trip) : Prop where
  floor : min cfg.startingCooldown cfg.authStartingCooldown ≤ trip.cooldown
  cap : trip.cooldown ≤ classCap cfg reason
  started : t.inner.state = .closed → trip.cooldown = classStart cfg reason
  doubled : t.inner.state = .halfOpen →
    ∃ previous, t.trips.head? = some previous ∧
      trip.cooldown = min (2 * previous.cooldown) (classCap cfg reason)
  restored : CapsWithinDoubling cfg →
    ∀ previous ∈ t.trips, sameClass previous.reason reason = true →
      previous.cooldown ≤ trip.cooldown

theorem CooldownInv.tripBounds {cfg : BreakerConfig} (hcfg : StartsUnderCaps cfg) {t : Traced}
    (h : CooldownInv cfg t) {now : Nat} {reason : FailureReason} {trip : Trip}
    (htrip : tripBy cfg now reason t.inner = some trip) : TripBounds cfg t reason trip := by
  obtain ⟨-, -, -, ⟨hstate, hcooldown⟩ | ⟨hstate, hcooldown⟩⟩ := tripBy_eq_some htrip
  · have hempty : t.trips = [] := h.closed hstate
    refine ⟨?_, ?_, fun _ => hcooldown, ?_, ?_⟩
    · rw [hcooldown]
      exact min_starts_le cfg reason
    · rw [hcooldown]
      exact hcfg.start_le_cap reason
    · rw [hstate]
      exact fun hhalf => State.noConfusion hhalf
    · rw [hempty]
      simp
  · obtain ⟨last, hlast, hcurrent⟩ := h.newest (by rw [hstate]; decide)
    have hmem : last ∈ t.trips := List.mem_of_mem_head? hlast
    refine ⟨?_, ?_, ?_, fun _ => ⟨last, hlast, ?_⟩, ?_⟩
    · rw [hcooldown]
      refine Nat.le_min.mpr ⟨?_, ?_⟩
      · have := h.floor last hmem
        omega
      · exact Nat.le_trans (min_starts_le cfg reason) (hcfg.start_le_cap reason)
    · rw [hcooldown]
      exact Nat.min_le_right _ _
    · rw [hstate]
      exact fun hclosed => State.noConfusion hclosed
    · rw [hcooldown, hcurrent, Nat.mul_comm]
    · intro hcaps previous hprevious hclass
      rw [hcooldown]
      refine Nat.le_min.mpr ⟨h.restored hcaps previous hprevious, ?_⟩
      rw [← classCap_of_sameClass cfg hclass]
      exact h.cap previous hprevious

theorem CooldownInv.onFailure {cfg : BreakerConfig} (hcfg : StartsUnderCaps cfg) {t : Traced}
    (h : CooldownInv cfg t) (now : Nat) (reason : FailureReason) :
    CooldownInv cfg (t.step cfg (.onFailure now reason)) := by
  have hinner : (t.step cfg (.onFailure now reason)).inner =
      Breaker.onFailure cfg now reason t.inner := rfl
  cases htrip : tripBy cfg now reason t.inner with
  | none =>
      obtain ⟨hstate, hcooldown⟩ := tripBy_eq_none htrip
      refine h.of_same (by rw [hinner, hstate]) (by rw [hinner, hcooldown]) ?_
      simp [Traced.step, htrip]
  | some trip =>
      obtain ⟨hreason, hcurrent, hopened, hcases⟩ := tripBy_eq_some htrip
      have hbounds := h.tripBounds hcfg htrip
      have htrips : (t.step cfg (.onFailure now reason)).trips = trip :: t.trips := by
        simp [Traced.step, htrip]
      refine ⟨?_, ?_, ?_, ?_, ?_⟩
      · rw [hinner, hopened]
        exact fun hclosed => State.noConfusion hclosed
      · rw [htrips, hinner, hcurrent]
        exact fun _ => ⟨trip, rfl, rfl⟩
      · rw [htrips]
        exact List.forall_mem_cons.mpr ⟨hbounds.floor, h.floor⟩
      · rw [htrips]
        exact List.forall_mem_cons.mpr ⟨by rw [hreason]; exact hbounds.cap, h.cap⟩
      · rw [htrips, hinner, hcurrent]
        intro hcaps
        refine List.forall_mem_cons.mpr ⟨by omega, ?_⟩
        intro previous hprevious
        rcases hcases with ⟨hclosed, -⟩ | ⟨-, hcooldown⟩
        · rw [h.closed hclosed] at hprevious
          simp at hprevious
        · -- cut by this class's cap, or still doubling
          have hrestored := h.restored hcaps previous hprevious
          have hcap := h.cap previous hprevious
          have hdouble := hcaps.le_double previous.reason reason
          omega

/-- The invariant holds after every run, whatever the clock reads. -/
theorem cooldownInv_trace {cfg : BreakerConfig} (hcfg : StartsUnderCaps cfg) (ops : List Op) :
    CooldownInv cfg (trace cfg ops) := by
  induction ops using List.reverseRecOn with
  | nil => exact cooldownInv_new cfg
  | append_singleton ops op ih =>
      rw [trace_concat]
      cases op with
      | preCall now => exact ih.preCall now
      | onSuccess now => exact CooldownInv.onSuccess _ now
      | onFailure now reason => exact ih.onFailure hcfg now reason

/-- **The cooldown of every trip.**  It is at most the cap of its class and at
    least the smaller start; from `Closed` it is the start of its class; a failed
    probe doubles the cooldown of the trip before it, of either class, up to its
    own cap, so it reaches its start exactly when that doubled cooldown does.  A
    failed probe does not shorten the cooldown of its class when that trip was
    of its class, nor ever when the caps are within a doubling of each other. -/
theorem trip_cooldown_bounds {cfg : BreakerConfig} (hcfg : StartsUnderCaps cfg) (ops : List Op)
    {now : Nat} {reason : FailureReason} {trip : Trip}
    (htrip : tripBy cfg now reason (trace cfg ops).inner = some trip) :
    trip.cooldown ≤ classCap cfg reason ∧
      min cfg.startingCooldown cfg.authStartingCooldown ≤ trip.cooldown ∧
      ((trace cfg ops).inner.state = .closed → trip.cooldown = classStart cfg reason) ∧
      ((trace cfg ops).inner.state = .halfOpen →
        ∃ previous, (trace cfg ops).trips.head? = some previous ∧
          trip.cooldown = min (2 * previous.cooldown) (classCap cfg reason) ∧
          (classStart cfg reason ≤ trip.cooldown ↔
            classStart cfg reason ≤ 2 * previous.cooldown)) ∧
      ∀ previous,
        (trace cfg ops).trips.find? (fun trip => sameClass trip.reason reason) = some previous →
        ((trace cfg ops).trips.head? = some previous ∨ CapsWithinDoubling cfg) →
        previous.cooldown ≤ trip.cooldown := by
  have hinv := cooldownInv_trace hcfg ops
  have hbounds := hinv.tripBounds hcfg htrip
  obtain ⟨-, -, -, hcases⟩ := tripBy_eq_some htrip
  have hstart := hcfg.start_le_cap reason
  refine ⟨hbounds.cap, hbounds.floor, hbounds.started, ?_, ?_⟩
  · intro hhalf
    obtain ⟨previous, hhead, hcooldown⟩ := hbounds.doubled hhalf
    refine ⟨previous, hhead, hcooldown, ?_⟩
    rw [hcooldown, Nat.le_min]
    exact ⟨fun hboth => hboth.1, fun hdouble => ⟨hdouble, hstart⟩⟩
  · intro previous hfind hwhich
    have hmem : previous ∈ (trace cfg ops).trips := List.mem_of_find?_eq_some hfind
    have hclass : sameClass previous.reason reason = true := by
      simpa using List.find?_some hfind
    rcases hwhich with hhead | hcaps
    · rcases hcases with ⟨hclosed, -⟩ | ⟨hhalf, -⟩
      · rw [hinv.closed hclosed] at hmem
        simp at hmem
      · obtain ⟨newest, hnewest, hcooldown⟩ := hbounds.doubled hhalf
        obtain rfl := Option.some.inj (hhead.symm.trans hnewest)
        have hcap := hinv.cap previous hmem
        rw [classCap_of_sameClass cfg hclass] at hcap
        omega
    · exact hbounds.restored hcaps previous hmem hclass

/-- The default breaker, tripped by five timeouts, admits its probe. -/
def timeoutsThenProbe : List Op :=
  List.replicate 5 (.onFailure 0 .timeout) ++ [.preCall (secs 15)]

/-- An auth trip, then a timed-out probe, then another probe. -/
def authThenTimeout : List Op :=
  [.onFailure 0 .auth, .preCall (secs 60), .onFailure (secs 60) .timeout,
    .preCall (secs 200)]

/-- A valid configuration whose auth cap is far above the other one. -/
def farCaps : BreakerConfig := { BreakerConfig.defaultSpec with maxCooldown := secs 20 }

/-- A failed `Auth` probe after five timeouts opens for 30 seconds, half of the
    auth start; and where the caps lie far apart, an `Auth` probe that fails after
    a timed-out one opens for less than the `Auth` trip before it. -/
theorem trip_cooldown_not_within_class :
    (¬ ∀ cfg, StartsUnderCaps cfg → ∀ ops now reason trip,
        tripBy cfg now reason (trace cfg ops).inner = some trip →
        classStart cfg reason ≤ trip.cooldown ∧ trip.cooldown ≤ classCap cfg reason) ∧
      ¬ ∀ cfg, StartsUnderCaps cfg → ∀ ops now reason trip,
        tripBy cfg now reason (trace cfg ops).inner = some trip →
        ∀ previous,
          (trace cfg ops).trips.find? (fun trip => sameClass trip.reason reason) =
            some previous →
          previous.cooldown ≤ trip.cooldown := by
  constructor
  · intro h
    have htrip := h .defaultSpec ⟨by decide, by decide⟩ timeoutsThenProbe (secs 15) .auth
      ⟨.auth, secs 30⟩ (by decide)
    exact absurd htrip.1 (by decide)
  · intro h
    have htrip := h farCaps ⟨by decide, by decide⟩ authThenTimeout (secs 200) .auth
      ⟨.auth, secs 40⟩ (by decide) ⟨.auth, secs 60⟩ (by decide)
    exact absurd htrip (by decide)

theorem trip_cooldown_bounds_probe :
    secs 30 ≤ classCap .defaultSpec .auth ∧ secs 15 ≤ secs 30 :=
  have h := @trip_cooldown_bounds .defaultSpec ⟨by decide, by decide⟩ timeoutsThenProbe
    (secs 15) .auth ⟨.auth, secs 30⟩ (by decide)
  ⟨h.1, h.2.1⟩

end RustyImap.Breaker
