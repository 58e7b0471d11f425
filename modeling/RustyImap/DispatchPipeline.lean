import RustyImap.CircuitBreaker
import RustyImap.LabelledRuns

/-!
# One account's dispatch pipeline

`ImapMcpServer::dispatch_account_scoped` (`rimap-server/src/mcp/server.rs`)
around `DispatchGuard` (`rimap-authz/src/guard.rs`), as a transition system over
any number of concurrent calls.  Every label is one critical section of the
code: the stages of `pre_dispatch` up to the breaker mutex, the governor, the
report under the mutex.  `on_failure` reads the clock before it takes the
mutex, so a failing call has two labels, and other calls may run in between.

The governor is third-party code and answers freely (`Label.governor`); the
tool call under its ceiling resolves to any result (`Label.finish`), or its
future is dropped while it is awaited (`Label.drop`).  Nothing is awaited
between `pre_call` and the governor, nor around a report, so no drop lands
there.
-/

namespace RustyImap.Breaker

open RustyImap.LabelledRuns

/-- `rimap_error_to_breaker_reason`: `none` for user, agent and policy errors,
    which the breaker must ignore, and for everything from the SMTP side. -/
def rimapErrorToBreakerReason (err : RimapError) : Option FailureReason :=
  match err with
  | .smtp _ _ => none
  | _ =>
      match err.code with
      | .connectionLost => some .connectionLost
      | .auth => some .auth
      | .timeout => some .timeout
      | .imapProtocol | .smtpProtocol => some .protocol
      | .tls => some .tls
      | .invalidInput | .postureDenied | .rateLimited | .circuitOpen | .notFound
      | .attachmentTooLarge | .protectedFolder | .expungeDenied | .config | .internal
      | .noAccount | .unknownAccount | .cancelled | .uidValidityChanged => none

abbrev CallId := Nat

/-- Which branch of `pre_call` let the call through.  The code does not record
    this; no transition reads it. -/
inductive Admission where
  | ordinary
  | probe
deriving DecidableEq, Repr

inductive Phase where
  | checked                                         -- past `pre_call`, governor next
  | running                                         -- inside the tool call
  | failing (reason : FailureReason) (now : Nat)    -- clock read, mutex not yet taken
deriving DecidableEq, Repr

structure Call where
  id : CallId
  admission : Admission
  phase : Phase
deriving DecidableEq, Repr

/-- The outstanding calls are those past `pre_call` that have not ended. -/
structure Pipeline where
  clock : Nat
  breaker : Inner
  calls : List Call
deriving DecidableEq, Repr

namespace Pipeline

def new (cfg : BreakerConfig) : Pipeline where
  clock := 0
  breaker := .new cfg
  calls := []

def phaseOf (s : Pipeline) (d : CallId) : Option Phase :=
  (s.calls.find? fun c => c.id == d).map Call.phase

def setPhase (s : Pipeline) (d : CallId) (phase : Phase) : Pipeline :=
  { s with calls := s.calls.map fun c => if c.id = d then { c with phase := phase } else c }

def release (s : Pipeline) (d : CallId) : Pipeline :=
  { s with calls := s.calls.filter fun c => c.id != d }

end Pipeline

inductive Label where
  | advance (by_ : Nat)
  | preDispatch (d : CallId) (tool : ToolName)
  | governor (d : CallId) (rejected : Option Nat)
  | finish (d : CallId) (result : Except RimapError Unit)
  | reportFailure (d : CallId)
  | drop (d : CallId)
deriving DecidableEq

/-- `pre_dispatch` up to the breaker: the matrix check comes first and its
    error returns before the breaker is touched. -/
def preDispatch (matrix : EffectiveMatrix) (tool : ToolName) (now : Nat) (g : Inner) :
    Except AuthzError Unit × Inner :=
  match matrix.check tool with
  | .error e => (.error e, g)
  | .ok () => preCall now g

def admissionIn (g : Inner) : Admission := if g.state = .opened then .probe else .ordinary

def step (cfg : BreakerConfig) (matrix : EffectiveMatrix) (s : Pipeline) :
    Label → Option Pipeline
  | .advance by_ => some { s with clock := s.clock + by_ }
  | .preDispatch d tool =>
      if (s.phaseOf d).isSome then none
      else
        match preDispatch matrix tool s.clock s.breaker with
        | (.error _, g) => some { s with breaker := g }
        | (.ok (), g) =>
            some { s with
              breaker := g
              calls := ⟨d, admissionIn s.breaker, .checked⟩ :: s.calls }
  | .governor d rejected =>
      match s.phaseOf d, rejected with
      | some .checked, none => some (s.setPhase d .running)
      | some .checked, some _ => some (s.release d)
      | _, _ => none
  | .finish d result =>
      match s.phaseOf d, result with
      | some .running, .ok () =>
          some { s.release d with breaker := onSuccess cfg s.clock s.breaker }
      | some .running, .error e =>
          match rimapErrorToBreakerReason e with
          | some reason => some (s.setPhase d (.failing reason s.clock))
          | none => some (s.release d)
      | _, _ => none
  | .reportFailure d =>
      match s.phaseOf d with
      | some (.failing reason now) =>
          some { s.release d with breaker := onFailure cfg now reason s.breaker }
      | _ => none
  | .drop d =>
      match s.phaseOf d with
      | some .running => some (s.release d)
      | _ => none

/-- The call that ends at this label without a word to the breaker: rejected by
    the governor after `pre_call`, ended by a breaker-neutral error, dropped. -/
def Label.leavesUnreported : Label → Option CallId
  | .governor d (some _) => some d
  | .finish d (.error e) =>
      match rimapErrorToBreakerReason e with
      | none => some d
      | some _ => none
  | .drop d => some d
  | _ => none

/-- The call whose `on_success` or `on_failure` runs at this label. -/
def Label.reports : Label → Option CallId
  | .finish d (.ok ()) => some d
  | .reportFailure d => some d
  | _ => none

/-! ## Everything a step can do

Five kinds of step.  A quiet one touches neither the breaker nor the set of
outstanding calls, at most a call's phase and the clock. -/

def Call.key (c : Call) : CallId × Admission := (c.id, c.admission)

inductive Transition (cfg : BreakerConfig) (s : Pipeline) : Label → Pipeline → Prop where
  | quiet {a : Label} {t : Pipeline} (hbreaker : t.breaker = s.breaker)
      (hclock : s.clock ≤ t.clock) (hcalls : t.calls.map Call.key = s.calls.map Call.key)
      (hleaves : a.leavesUnreported = none) : Transition cfg s a t
  | enter (d : CallId) (tool : ToolName) (g : Inner)
      (hpre : preCall s.clock s.breaker = (.ok (), g)) :
      Transition cfg s (.preDispatch d tool)
        { s with breaker := g, calls := ⟨d, admissionIn s.breaker, .checked⟩ :: s.calls }
  | leave {a : Label} (d : CallId) (hleaves : a.leavesUnreported = some d) :
      Transition cfg s a (s.release d)
  | succeed (c : Call) (hmem : c ∈ s.calls) :
      Transition cfg s (.finish c.id (.ok ()))
        { s.release c.id with breaker := onSuccess cfg s.clock s.breaker }
  | fail (c : Call) (hmem : c ∈ s.calls) (reason : FailureReason) (now : Nat)
      (hphase : s.phaseOf c.id = some (.failing reason now)) :
      Transition cfg s (.reportFailure c.id)
        { s.release c.id with breaker := onFailure cfg now reason s.breaker }

theorem exists_of_phaseOf {s : Pipeline} {d : CallId} {phase : Phase}
    (h : s.phaseOf d = some phase) : ∃ c ∈ s.calls, c.id = d := by
  unfold Pipeline.phaseOf at h
  obtain ⟨c, hfind, -⟩ := Option.map_eq_some_iff.mp h
  exact ⟨c, List.mem_of_find?_eq_some hfind, by simpa using List.find?_some hfind⟩

theorem setPhase_key (s : Pipeline) (d : CallId) (phase : Phase) :
    (s.setPhase d phase).calls.map Call.key = s.calls.map Call.key := by
  simp only [Pipeline.setPhase, List.map_map]
  apply List.map_congr_left
  intro c _
  by_cases h : c.id = d <;> simp [h, Call.key]

theorem transition_of_step {cfg : BreakerConfig} {matrix : EffectiveMatrix} {s t : Pipeline}
    {a : Label} (h : step cfg matrix s a = some t) : Transition cfg s a t := by
  cases a with
  | advance by_ =>
      simp only [step, Option.some.injEq] at h
      subst h
      exact .quiet rfl (Nat.le_add_right _ _) rfl rfl
  | preDispatch d tool =>
      simp only [step] at h
      split at h
      · cases h
      · cases hpre : preDispatch matrix tool s.clock s.breaker with
        | mk verdict g =>
          rw [hpre] at h
          cases hcheck : matrix.check tool with
          | error e =>
              -- posture denied: the breaker mutex is never taken
              rw [preDispatch, hcheck] at hpre
              cases hpre
              cases h
              exact .quiet rfl (Nat.le_refl _) rfl rfl
          | ok u =>
              rw [preDispatch, hcheck] at hpre
              cases verdict with
              | error e =>
                  cases h
                  exact .quiet (preCall_error hpre) (Nat.le_refl _) rfl rfl
              | ok u =>
                  cases h
                  exact .enter d tool g hpre
  | governor d rejected =>
      simp only [step] at h
      split at h
      · cases h
        exact .quiet rfl (Nat.le_refl _) (setPhase_key _ _ _) rfl
      · cases h
        exact .leave d rfl
      · cases h
  | finish d result =>
      simp only [step] at h
      split at h
      · rename_i hphase
        cases h
        obtain ⟨c, hmem, rfl⟩ := exists_of_phaseOf hphase
        exact .succeed c hmem
      · rename_i e hphase
        cases hreason : rimapErrorToBreakerReason e with
        | none =>
            rw [hreason] at h
            cases h
            exact .leave d (by simp [Label.leavesUnreported, hreason])
        | some reason =>
            rw [hreason] at h
            cases h
            exact .quiet rfl (Nat.le_refl _) (setPhase_key _ _ _)
              (by simp [Label.leavesUnreported, hreason])
      · cases h
  | reportFailure d =>
      simp only [step] at h
      split at h
      · rename_i reason now hphase
        cases h
        obtain ⟨c, hmem, rfl⟩ := exists_of_phaseOf hphase
        exact .fail c hmem reason now hphase
      · cases h
  | drop d =>
      simp only [step] at h
      split at h
      · cases h
        exact .leave d rfl
      · cases h

/-! ## The probe slot

A state with no outstanding call is free when the breaker is not in `HalfOpen`;
then a clock past `open_until` lets the next call through. -/

def SlotFree (s : Pipeline) : Prop :=
  s.calls = [] → s.breaker.state ≠ .halfOpen ∧
    (s.breaker.openUntil ≤ s.clock → (preCall s.clock s.breaker).1 = .ok ())

/-- No call leaves without a report while the breaker is in `HalfOpen` and no
    other call is outstanding. -/
def KeepsProbe (s : Pipeline) (a : Label) : Prop :=
  ∀ d, a.leavesUnreported = some d → s.breaker.state = .halfOpen → ∃ c ∈ s.calls, c.id ≠ d

def ProbeOutstanding (s : Pipeline) : Prop := s.breaker.state = .halfOpen → s.calls ≠ []

theorem slotFree_of_probeOutstanding {s : Pipeline} (h : ProbeOutstanding s) : SlotFree s := by
  intro hcalls
  have hstate : s.breaker.state ≠ .halfOpen := fun hhalf => h hhalf hcalls
  exact ⟨hstate, preCall_admits hstate⟩

theorem probeOutstanding_step {cfg : BreakerConfig} {matrix : EffectiveMatrix}
    (s : Pipeline) (a : Label) (t : Pipeline) (hinv : ProbeOutstanding s)
    (hok : KeepsProbe s a) (hstep : step cfg matrix s a = some t) : ProbeOutstanding t := by
  intro hhalf
  cases transition_of_step hstep with
  | quiet hbreaker hclock hcalls hleaves =>
      rw [hbreaker] at hhalf
      intro hempty
      rw [hempty] at hcalls
      exact hinv hhalf (List.map_eq_nil_iff.mp hcalls.symm)
  | enter d tool g hpre => exact List.cons_ne_nil _ _
  | leave d hleaves =>
      obtain ⟨c, hmem, hne⟩ := hok d hleaves hhalf
      apply List.ne_nil_of_mem (a := c)
      simp [Pipeline.release, hmem, hne]
  | succeed c hmem => simp at hhalf
  | fail c hmem reason now hphase =>
      exact absurd hhalf (onFailure_ne_halfOpen cfg now reason s.breaker)

/-- The only way into a wedged state: the last outstanding call leaves without
    a report while the breaker is in `HalfOpen`. -/
theorem wedged_of_not_keepsProbe {cfg : BreakerConfig} {matrix : EffectiveMatrix}
    {s t : Pipeline} {a : Label} (hstep : step cfg matrix s a = some t)
    (hnot : ¬ KeepsProbe s a) : t.calls = [] ∧ t.breaker.state = .halfOpen := by
  unfold KeepsProbe at hnot
  push Not at hnot
  obtain ⟨d, hleaves, hhalf, hall⟩ := hnot
  cases transition_of_step hstep with
  | quiet hbreaker hclock hcalls hnone =>
      rw [hleaves] at hnone
      cases hnone
  | enter d' tool g hpre => cases hleaves
  | leave d' hleaves' =>
      rw [hleaves] at hleaves'
      cases hleaves'
      refine ⟨?_, hhalf⟩
      simp only [Pipeline.release, List.filter_eq_nil_iff]
      intro c hmem
      simp [hall c hmem]
  | succeed c hmem => cases hleaves
  | fail c hmem reason now hphase => cases hleaves

/-- A tool call that trips the breaker with an auth failure, and a second one
    that probes it after the cooldown and succeeds. -/
def probeReports : List Label :=
  [.preDispatch 0 .search, .governor 0 none, .finish 0 (.error (.imap .auth "LOGIN failed")),
   .reportFailure 0, .advance (secs 60), .preDispatch 1 .search, .governor 1 none,
   .finish 1 (.ok ())]

/-- The same, but the governor rejects the probe. -/
def probeRateLimited : List Label :=
  [.preDispatch 0 .search, .governor 0 none, .finish 0 (.error (.imap .auth "LOGIN failed")),
   .reportFailure 0, .advance (secs 60), .preDispatch 1 .search, .governor 1 (some 250)]

def Timely (s : Pipeline) (a : Label) : Prop :=
  ∀ c ∈ s.calls, c.admission = .ordinary → a.reports = some c.id →
    s.breaker.state ≠ .halfOpen ∧
      (a = .finish c.id (.ok ()) → s.breaker.state = .opened → s.breaker.openUntil ≤ s.clock)

instance (s : Pipeline) (a : Label) : Decidable (Timely s a) :=
  inferInstanceAs (Decidable (∀ c ∈ s.calls, _ → _ → _))

/-- No call is admitted before the time `a` trips the breaker for has passed. -/
def CooldownHolds (s : Pipeline) (a : Label) (t u : Pipeline) : Prop :=
  ∀ d reason now, a = .reportFailure d → s.phaseOf d = some (.failing reason now) →
    s.breaker.state ≠ .opened → t.breaker.state = .opened →
    (preCall u.clock u.breaker).1 = .ok () → now + t.breaker.currentCooldown ≤ u.clock

/-- After `p` has taken the probe slot, as long as `p` has not reported, the
    breaker stays in `HalfOpen` and admits nobody. -/
def ProbeExclusive (s : Pipeline) (a : Label) (t : Pipeline) (after : List Label)
    (u : Pipeline) : Prop :=
  ∀ p tool, a = .preDispatch p tool → s.breaker.state = .opened → t.breaker.state = .halfOpen →
    (∀ b ∈ after, b.reports ≠ some p) →
    u.breaker.state = .halfOpen ∧ (preCall u.clock u.breaker).1 ≠ .ok ()

/-- Outstanding probes exist in `HalfOpen` only, and share one id. -/
structure OneProbe (s : Pipeline) : Prop where
  halfOpen : ∀ c ∈ s.calls, c.admission = .probe → s.breaker.state = .halfOpen
  unique : ∀ c ∈ s.calls, ∀ c' ∈ s.calls,
    c.admission = .probe → c'.admission = .probe → c.id = c'.id

theorem Admission.ne_probe {x : Admission} (h : x ≠ .probe) : x = .ordinary := by
  cases x with
  | ordinary => rfl
  | probe => exact absurd rfl h

theorem exists_of_key_eq {l l' : List Call} (h : l'.map Call.key = l.map Call.key) {c : Call}
    (hc : c ∈ l') : ∃ c₀ ∈ l, c₀.id = c.id ∧ c₀.admission = c.admission := by
  have hkey : c.key ∈ l.map Call.key := h ▸ List.mem_map_of_mem hc
  obtain ⟨c₀, hmem, heq⟩ := List.mem_map.mp hkey
  obtain ⟨hid, hadm⟩ := Prod.mk.inj heq
  exact ⟨c₀, hmem, hid, hadm⟩

theorem mem_release {s : Pipeline} {d : CallId} {c : Call} :
    c ∈ (s.release d).calls ↔ c ∈ s.calls ∧ c.id ≠ d := by
  simp [Pipeline.release]

theorem OneProbe.release {s : Pipeline} (h : OneProbe s) (d : CallId) : OneProbe (s.release d) where
  halfOpen c hc hprobe := h.halfOpen c (mem_release.mp hc).1 hprobe
  unique c hc c' hc' := h.unique c (mem_release.mp hc).1 c' (mem_release.mp hc').1

theorem OneProbe.of_ordinary {s : Pipeline} (h : ∀ c ∈ s.calls, c.admission = .ordinary) :
    OneProbe s where
  halfOpen c hc hprobe := by
    rw [h c hc] at hprobe
    cases hprobe
  unique c hc _ _ hprobe _ := by
    rw [h c hc] at hprobe
    cases hprobe

/-- Once a report has ended call `c`, no probe is left: in `HalfOpen` only the
    probe may report, elsewhere there is none. -/
theorem OneProbe.no_probe_after_report {s : Pipeline} (h : OneProbe s) {a : Label} {c : Call}
    (hc : c ∈ s.calls) (hok : Timely s a) (hreports : a.reports = some c.id) :
    ∀ c' ∈ (s.release c.id).calls, c'.admission = .ordinary := by
  intro c' hc'
  obtain ⟨hmem, hne⟩ := mem_release.mp hc'
  apply Admission.ne_probe
  intro hprobe'
  have hhalf := h.halfOpen c' hmem hprobe'
  by_cases hprobe : c.admission = .probe
  · exact hne (h.unique c' hmem c hc hprobe' hprobe)
  · exact (hok c hc (Admission.ne_probe hprobe) hreports).1 hhalf

theorem oneProbe_step {cfg : BreakerConfig} {matrix : EffectiveMatrix} (s : Pipeline) (a : Label)
    (t : Pipeline) (hinv : OneProbe s) (hok : Timely s a)
    (hstep : step cfg matrix s a = some t) : OneProbe t := by
  cases transition_of_step hstep with
  | quiet hbreaker hclock hcalls hleaves =>
      constructor
      · intro c hc hprobe
        obtain ⟨c₀, hmem, -, hadm⟩ := exists_of_key_eq hcalls hc
        rw [hbreaker]
        exact hinv.halfOpen c₀ hmem (hadm.trans hprobe)
      · intro c hc c' hc' hprobe hprobe'
        obtain ⟨c₀, hmem, hid, hadm⟩ := exists_of_key_eq hcalls hc
        obtain ⟨c₁, hmem₁, hid₁, hadm₁⟩ := exists_of_key_eq hcalls hc'
        rw [← hid, ← hid₁]
        exact hinv.unique c₀ hmem c₁ hmem₁ (hadm.trans hprobe) (hadm₁.trans hprobe')
  | enter d tool g hpre =>
      -- outside `HalfOpen` the invariant leaves no probe among the calls of `s`
      have hold : s.breaker.state ≠ .halfOpen → ∀ c ∈ s.calls, c.admission ≠ .probe :=
        fun hne c hc hprobe => hne (hinv.halfOpen c hc hprobe)
      rcases preCall_ok_cases hpre with ⟨hclosed, rfl⟩ | ⟨hopened, -, rfl⟩
      · have hnone := hold (by rw [hclosed]; decide)
        have hnew : admissionIn s.breaker = .ordinary := by simp [admissionIn, hclosed]
        constructor
        · intro c hc hprobe
          rcases List.mem_cons.mp hc with rfl | hc
          · rw [hnew] at hprobe; cases hprobe
          · exact absurd hprobe (hnone c hc)
        · intro c hc c' _ hprobe _
          rcases List.mem_cons.mp hc with rfl | hc
          · rw [hnew] at hprobe; cases hprobe
          · exact absurd hprobe (hnone c hc)
      · have hnone := hold (by rw [hopened]; decide)
        constructor
        · intro c hc hprobe
          rfl
        · intro c hc c' hc' hprobe hprobe'
          rcases List.mem_cons.mp hc with rfl | hc
          · rcases List.mem_cons.mp hc' with rfl | hc'
            · rfl
            · exact absurd hprobe' (hnone c' hc')
          · exact absurd hprobe (hnone c hc)
  | leave d hleaves => exact hinv.release d
  | succeed c hmem =>
      exact .of_ordinary (hinv.no_probe_after_report hmem hok rfl)
  | fail c hmem reason now hphase =>
      exact .of_ordinary (hinv.no_probe_after_report hmem hok rfl)

theorem oneProbe_new (cfg : BreakerConfig) : OneProbe (.new cfg) where
  halfOpen _ hc := absurd hc List.not_mem_nil
  unique _ hc := absurd hc List.not_mem_nil

/-- Up to `deadline` the breaker is `Open` with an `open_until` no earlier. -/
def OpenUntil (deadline : Nat) (s : Pipeline) : Prop :=
  deadline ≤ s.clock ∨ (s.breaker.state = .opened ∧ deadline ≤ s.breaker.openUntil)

theorem openUntil_step {cfg : BreakerConfig} {matrix : EffectiveMatrix} {deadline : Nat}
    (s : Pipeline) (a : Label) (t : Pipeline) (hinv : OneProbe s ∧ OpenUntil deadline s)
    (hok : Timely s a) (hstep : step cfg matrix s a = some t) :
    OneProbe t ∧ OpenUntil deadline t := by
  refine ⟨oneProbe_step s a t hinv.1 hok hstep, ?_⟩
  obtain ⟨hone, hpast | ⟨hopened, hle⟩⟩ := hinv
  · left
    cases transition_of_step hstep with
    | quiet hbreaker hclock hcalls hleaves => exact Nat.le_trans hpast hclock
    | enter d tool g hpre => exact hpast
    | leave d hleaves => exact hpast
    | succeed c hmem => exact hpast
    | fail c hmem reason now hphase => exact hpast
  · cases transition_of_step hstep with
    | quiet hbreaker hclock hcalls hleaves =>
        right
        rw [hbreaker]
        exact ⟨hopened, hle⟩
    | enter d tool g hpre =>
        rcases preCall_ok_cases hpre with ⟨hclosed, -⟩ | ⟨-, hpassed, -⟩
        · rw [hopened] at hclosed; cases hclosed
        · exact Or.inl (Nat.le_trans hle hpassed)
    | leave d hleaves => exact Or.inr ⟨hopened, hle⟩
    | succeed c hmem =>
        -- no probe is outstanding in `Open`, so the reporter is an old call
        have hord : c.admission = .ordinary := by
          apply Admission.ne_probe
          intro hprobe
          have := hone.halfOpen c hmem hprobe
          rw [hopened] at this
          cases this
        exact Or.inl (Nat.le_trans hle ((hok c hmem hord rfl).2 rfl hopened))
    | fail c hmem reason now hphase =>
        right
        simp only [onFailure_opened hopened]
        exact ⟨hopened, hle⟩

/-- Until `p` reports, the breaker stays in `HalfOpen` and every outstanding
    probe is `p`. -/
def ProbedBy (p : CallId) (s : Pipeline) : Prop :=
  s.breaker.state = .halfOpen ∧ ∀ c ∈ s.calls, c.admission = .probe → c.id = p

theorem probedBy_step {cfg : BreakerConfig} {matrix : EffectiveMatrix} {p : CallId}
    (s : Pipeline) (a : Label) (t : Pipeline) (hinv : ProbedBy p s)
    (hok : Timely s a ∧ a.reports ≠ some p) (hstep : step cfg matrix s a = some t) :
    ProbedBy p t := by
  obtain ⟨hhalf, hprobe⟩ := hinv
  -- a report would have to come from an old call, which the guard rules out
  have hsilent : ∀ c ∈ s.calls, a.reports ≠ some c.id := by
    intro c hc hreports
    by_cases hadm : c.admission = .probe
    · exact hok.2 (by rw [hreports, hprobe c hc hadm])
    · exact (hok.1 c hc (Admission.ne_probe hadm) hreports).1 hhalf
  cases transition_of_step hstep with
  | quiet hbreaker hclock hcalls hleaves =>
      refine ⟨by rw [hbreaker]; exact hhalf, ?_⟩
      intro c hc hadm
      obtain ⟨c₀, hmem, hid, hadm₀⟩ := exists_of_key_eq hcalls hc
      rw [← hid]
      exact hprobe c₀ hmem (hadm₀.trans hadm)
  | enter d tool g hpre =>
      rcases preCall_ok_cases hpre with ⟨hclosed, -⟩ | ⟨hopened, -, -⟩
      · rw [hhalf] at hclosed; cases hclosed
      · rw [hhalf] at hopened; cases hopened
  | leave d hleaves =>
      exact ⟨hhalf, fun c hc => hprobe c (mem_release.mp hc).1⟩
  | succeed c hmem => exact absurd rfl (hsilent c hmem)
  | fail c hmem reason now hphase => exact absurd rfl (hsilent c hmem)

/-- **Cooldown and probe exclusivity under timely reports.**  In every run in
    which no call admitted in `Closed` reports during a probe, nor reports a
    success in `Open` before the cooldown is over: a trip keeps every caller
    out for its whole cooldown, and from the transition to `HalfOpen` until the
    probe's own report nobody else is admitted and nothing moves the breaker. -/
theorem cooldown_and_probe_hold (cfg : BreakerConfig) (matrix : EffectiveMatrix)
    (before after : List Label) (a : Label) (s t u : Pipeline)
    (hguard : AllSteps (step cfg matrix) Timely (.new cfg) (before ++ a :: after))
    (hs : run (step cfg matrix) (.new cfg) before = some s)
    (ht : step cfg matrix s a = some t)
    (hu : run (step cfg matrix) t after = some u) :
    CooldownHolds s a t u ∧ ProbeExclusive s a t after u := by
  have hone : OneProbe s :=
    invariant_of_allSteps oneProbe_step (oneProbe_new cfg) (allSteps_append.mp hguard).1 hs
  obtain ⟨hok, hrest⟩ := (allSteps_append.mp hguard).2 s hs
  have hafter := hrest t ht
  have hone' : OneProbe t := oneProbe_step s a t hone hok ht
  constructor
  · intro d reason now ha hphase hnot htrip hnext
    subst ha
    have hdeadline : OpenUntil (now + t.breaker.currentCooldown) t := by
      cases transition_of_step ht with
      | quiet hbreaker hclock hcalls hleaves =>
          rw [hbreaker] at htrip
          exact absurd htrip hnot
      | leave d hleaves => cases hleaves
      | fail c hmem reason' now' hphase' =>
          rw [hphase] at hphase'
          cases hphase'
          rcases onFailure_cases cfg now reason hnot with ⟨hclosed, -⟩ | ⟨-, huntil⟩
          · rw [hclosed] at htrip; cases htrip
          · exact Or.inr ⟨htrip, Nat.le_of_eq huntil.symm⟩
    obtain ⟨-, hpast | ⟨hopened, hle⟩⟩ :=
      invariant_of_allSteps openUntil_step ⟨hone', hdeadline⟩ hafter hu
    · exact hpast
    · -- still `Open`: only a clock past `open_until` admits
      rcases preCall_ok_cases (Prod.ext hnext rfl) with ⟨hclosed, -⟩ | ⟨-, hpassed, -⟩
      · rw [hopened] at hclosed; cases hclosed
      · exact Nat.le_trans hle hpassed
  · intro p tool ha hopened hhalf hsilent
    subst ha
    have hprobed : ProbedBy p t := by
      refine ⟨hhalf, ?_⟩
      cases transition_of_step ht with
      | quiet hbreaker hclock hcalls hleaves =>
          rw [hbreaker, hopened] at hhalf
          cases hhalf
      | leave d hleaves => cases hleaves
      | enter d tool g hpre =>
          intro c hc hadm
          rcases List.mem_cons.mp hc with rfl | hc
          · rfl
          · have hold := hone.halfOpen c hc hadm
            rw [hopened] at hold
            cases hold
    have hend := invariant_of_allSteps probedBy_step hprobed
      (hafter.and (allSteps_of_forall hsilent)) hu
    exact ⟨hend.1, preCall_halfOpen hend.1⟩

/-- Two calls are past the governor when the first one has read the clock for
    its auth failure. -/
def twoRunning : List Label :=
  [.preDispatch 0 .search, .governor 0 none, .preDispatch 1 .listFolders, .governor 1 none,
   .finish 0 (.error (.imap .auth "LOGIN failed"))]

/-- The second call fails as well, which `Open` ignores, and the cooldown passes. -/
def lateFailure : List Label :=
  [.finish 1 (.error (.imap .connectionLost "EOF")), .reportFailure 1, .advance (secs 60)]

theorem cooldown_and_probe_hold_lateFailure :
    ∃ s t u, run (step .defaultSpec (.build .readonly fun _ => none)) (.new .defaultSpec)
        twoRunning = some s ∧
      step .defaultSpec (.build .readonly fun _ => none) s (.reportFailure 0) = some t ∧
      run (step .defaultSpec (.build .readonly fun _ => none)) t lateFailure = some u ∧
      (preCall u.clock u.breaker).1 = .ok () ∧
      CooldownHolds s (.reportFailure 0) t u ∧
      ProbeExclusive s (.reportFailure 0) t lateFailure u := by
  refine ⟨_, _, _, rfl, rfl, rfl, rfl, ?_⟩
  exact cooldown_and_probe_hold .defaultSpec (.build .readonly fun _ => none) twoRunning
    lateFailure (.reportFailure 0) _ _ _ (by decide) rfl rfl rfl

/-- A call admitted before the trip succeeds after it: the breaker is `Closed`
    again at the very time of the trip, and admits. -/
theorem cooldown_cut_short_by_late_success :
    ¬ ∀ (cfg : BreakerConfig) (matrix : EffectiveMatrix) (before after : List Label) (a : Label)
        (s t u : Pipeline),
      run (step cfg matrix) (.new cfg) before = some s → step cfg matrix s a = some t →
      run (step cfg matrix) t after = some u →
      CooldownHolds s a t u ∧ ProbeExclusive s a t after u := by
  intro hall
  have hcooldown := (hall .defaultSpec (.build .readonly fun _ => none) twoRunning
    [.finish 1 (.ok ())] (.reportFailure 0) _ _ _ rfl rfl rfl).1
  exact absurd (hcooldown 0 .auth 0 rfl rfl (by decide) rfl rfl) (by decide)

end RustyImap.Breaker
