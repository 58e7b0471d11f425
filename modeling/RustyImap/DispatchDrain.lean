import RustyImap.LabelledRuns
import RustyImap.TaskTable

/-!
# The shutdown drain

`DispatchDrain` (`rimap-server/src/mcp/drain.rs`) as a transition system over
any number of dispatches and of blocking writes they submit.  `inflight` and
`cancel` are the two `watch` cells; every label is one access to them, or a step
of a task between two accesses.

A poll of the `track` future starts with the biased cancel branch, so
`Label.beginPoll` either cuts the dispatch or enters the body, and `shutdown`
may set the flag while a body is inside a poll.  A body is dropped before its
registration (`Label.release` is a step of its own), a write holds its
registration from submission until the closure returns or is dropped unrun.
`Label.observe` is the value `shutdown` returns: `0` when `wait_for` saw a zero,
the current count when the budget ran out.
-/

namespace RustyImap.Shutdown

open RustyImap.LabelledRuns RustyImap.TaskTable

inductive DispatchPhase where
  | waiting       -- registered, not inside a poll
  | polling       -- the cancel branch was pending, the body is being polled
  | unwound       -- outcome known or future dropped, body gone, still registered
  | released
deriving DecidableEq, Repr

inductive WritePhase where
  | queued
  | running
  | ended         -- returned, or dropped unrun
deriving DecidableEq, Repr

structure Drain where
  inflight : Nat
  cancel : Bool
  dispatches : List DispatchPhase
  writes : List WritePhase
  returned : Option Nat
deriving DecidableEq, Repr

def Drain.new : Drain where
  inflight := 0
  cancel := false
  dispatches := []
  writes := []
  returned := none

/-- `Registration::open`. -/
def Drain.openRegistration (s : Drain) : Drain := { s with inflight := s.inflight + 1 }

/-- `Registration::drop`; `saturating_sub`. -/
def Drain.dropRegistration (s : Drain) : Drain := { s with inflight := s.inflight - 1 }

def Drain.setDispatch (s : Drain) (d : Nat) (phase : DispatchPhase) : Drain :=
  { s with dispatches := s.dispatches.set d phase }

def Drain.setWrite (s : Drain) (w : Nat) (phase : WritePhase) : Drain :=
  { s with writes := s.writes.set w phase }

inductive Label where
  | register
  | beginPoll (d : Nat)
  | submitWrite (d : Nat)
  | yieldBody (d : Nat)
  | finishBody (d : Nat)
  | dropFuture (d : Nat)
  | release (d : Nat)
  | startWrite (w : Nat)
  | finishWrite (w : Nat)
  | dropWrite (w : Nat)
  | shutdown
  | observe
deriving DecidableEq, Repr

def step (s : Drain) : Label → Option Drain
  | .register => some { s.openRegistration with dispatches := s.dispatches ++ [.waiting] }
  | .beginPoll d =>
      match s.dispatches[d]? with
      | some .waiting => some (s.setDispatch d (if s.cancel then .unwound else .polling))
      | _ => none
  | .submitWrite d =>
      match s.dispatches[d]? with
      | some .polling => some { s.openRegistration with writes := s.writes ++ [.queued] }
      | _ => none
  | .yieldBody d =>
      match s.dispatches[d]? with
      | some .polling => some (s.setDispatch d .waiting)
      | _ => none
  | .finishBody d =>
      match s.dispatches[d]? with
      | some .polling => some (s.setDispatch d .unwound)
      | _ => none
  | .dropFuture d =>
      match s.dispatches[d]? with
      | some .waiting => some (s.setDispatch d .unwound)
      | _ => none
  | .release d =>
      match s.dispatches[d]? with
      | some .unwound => some (s.dropRegistration.setDispatch d .released)
      | _ => none
  | .startWrite w =>
      match s.writes[w]? with
      | some .queued => some (s.setWrite w .running)
      | _ => none
  | .finishWrite w =>
      match s.writes[w]? with
      | some .running => some (s.dropRegistration.setWrite w .ended)
      | _ => none
  | .dropWrite w =>
      match s.writes[w]? with
      | some .queued => some (s.dropRegistration.setWrite w .ended)
      | _ => none
  | .shutdown => if s.cancel then none else some { s with cancel := true }
  | .observe =>
      if s.cancel && s.returned.isNone then some { s with returned := some s.inflight } else none

def DispatchPhase.isLive (phase : DispatchPhase) : Bool := phase != .released

def WritePhase.isLive (phase : WritePhase) : Bool := phase != .ended

/-- Live registrations: dispatches not yet released, writes not yet ended. -/
def Drain.live (s : Drain) : Nat :=
  s.dispatches.countP DispatchPhase.isLive + s.writes.countP WritePhase.isLive

/-- The label drops a registration. -/
def Label.drops : Label → Bool
  | .release _ | .finishWrite _ | .dropWrite _ => true
  | _ => false

/-- The step runs code of a dispatch body or of a blocking write. -/
def runsWork (s : Drain) : Label → Bool
  | .beginPoll _ => !s.cancel
  | .submitWrite _ | .yieldBody _ | .finishBody _ | .startWrite _ | .finishWrite _ => true
  | _ => false

/-! ## Everything a step can do -/

inductive Transition (s : Drain) : Label → Drain → Prop where
  | register :
      Transition s .register { s.openRegistration with dispatches := s.dispatches ++ [.waiting] }
  | submit (d : Nat) (hphase : s.dispatches[d]? = some .polling) :
      Transition s (.submitWrite d) { s.openRegistration with writes := s.writes ++ [.queued] }
  | move {a : Label} (d : Nat) (old new : DispatchPhase) (hphase : s.dispatches[d]? = some old)
      (hold : old.isLive = true) (hnew : new.isLive = true)
      (hbegins : new = .polling → s.cancel = false) : Transition s a (s.setDispatch d new)
  | release (d : Nat) (hphase : s.dispatches[d]? = some .unwound) :
      Transition s (.release d) (s.dropRegistration.setDispatch d .released)
  | startWrite (w : Nat) (hphase : s.writes[w]? = some .queued) :
      Transition s (.startWrite w) (s.setWrite w .running)
  | endWrite {a : Label} (w : Nat) (old : WritePhase) (hphase : s.writes[w]? = some old)
      (hold : old.isLive = true) :
      Transition s a (s.dropRegistration.setWrite w .ended)
  | shutdown : Transition s .shutdown { s with cancel := true }
  | observe (hcancel : s.cancel = true) :
      Transition s .observe { s with returned := some s.inflight }

theorem transition_of_step {s t : Drain} {a : Label} (h : step s a = some t) :
    Transition s a t := by
  cases a with
  | register => cases h; exact .register
  | beginPoll d =>
      simp only [step] at h
      split at h
      · rename_i hphase
        cases h
        cases hcancel : s.cancel with
        | true => exact .move d .waiting .unwound hphase rfl rfl nofun
        | false => exact .move d .waiting .polling hphase rfl rfl fun _ => hcancel
      · cases h
  | submitWrite d =>
      simp only [step] at h
      split at h
      · rename_i hphase
        cases h
        exact .submit d hphase
      · cases h
  | yieldBody d =>
      simp only [step] at h
      split at h
      · rename_i hphase
        cases h
        exact .move d .polling .waiting hphase rfl rfl nofun
      · cases h
  | finishBody d =>
      simp only [step] at h
      split at h
      · rename_i hphase
        cases h
        exact .move d .polling .unwound hphase rfl rfl nofun
      · cases h
  | dropFuture d =>
      simp only [step] at h
      split at h
      · rename_i hphase
        cases h
        exact .move d .waiting .unwound hphase rfl rfl nofun
      · cases h
  | release d =>
      simp only [step] at h
      split at h
      · rename_i hphase
        cases h
        exact .release d hphase
      · cases h
  | startWrite w =>
      simp only [step] at h
      split at h
      · rename_i hphase
        cases h
        exact .startWrite w hphase
      · cases h
  | finishWrite w =>
      simp only [step] at h
      split at h
      · rename_i hphase
        cases h
        exact .endWrite w .running hphase rfl
      · cases h
  | dropWrite w =>
      simp only [step] at h
      split at h
      · rename_i hphase
        cases h
        exact .endWrite w .queued hphase rfl
      · cases h
  | shutdown =>
      simp only [step] at h
      split at h
      · cases h
      · cases h
        exact .shutdown
  | observe =>
      simp only [step] at h
      split at h
      · rename_i hguard
        cases h
        exact .observe (Bool.and_eq_true_iff.mp hguard).1
      · cases h

/-! ## The count and the settled state -/

/-- Nothing can run any more: the flag is set, no body is inside a poll, no
    write is pending. -/
structure Settled (s : Drain) : Prop where
  cancelled : s.cancel = true
  noPoll : ∀ phase ∈ s.dispatches, phase ≠ .polling
  noWrite : ∀ phase ∈ s.writes, phase = .ended

structure Inv (s : Drain) : Prop where
  counted : s.inflight = s.live
  settled : s.returned = some 0 → Settled s

theorem inv_new : Inv .new where
  counted := rfl
  settled h := by cases h

theorem live_of_dispatch {s : Drain} {d : Nat} {phase : DispatchPhase}
    (h : s.dispatches[d]? = some phase) (hlive : phase.isLive = true) : 0 < s.live := by
  have hcount : 0 < s.dispatches.countP DispatchPhase.isLive :=
    List.countP_pos_iff.mpr ⟨phase, List.mem_of_getElem? h, hlive⟩
  exact Nat.lt_of_lt_of_le hcount (Nat.le_add_right _ _)

theorem live_of_write {s : Drain} {w : Nat} {phase : WritePhase}
    (h : s.writes[w]? = some phase) (hlive : phase.isLive = true) : 0 < s.live := by
  have hcount : 0 < s.writes.countP WritePhase.isLive :=
    List.countP_pos_iff.mpr ⟨phase, List.mem_of_getElem? h, hlive⟩
  exact Nat.lt_of_lt_of_le hcount (Nat.le_add_left _ _)

/-- A count of zero after the flag was set is a settled state. -/
theorem settled_of_live_eq_zero {s : Drain} (hcancel : s.cancel = true) (hlive : s.live = 0) :
    Settled s := by
  have hzero := Nat.add_eq_zero_iff.mp hlive
  refine ⟨hcancel, ?_, ?_⟩
  · intro phase hmem heq
    have hdead := List.countP_eq_zero.mp hzero.1 phase hmem
    rw [heq] at hdead
    exact hdead rfl
  · intro phase hmem
    have hdead := List.countP_eq_zero.mp hzero.2 phase hmem
    cases phase with
    | queued => exact absurd rfl hdead
    | running => exact absurd rfl hdead
    | ended => rfl

theorem counted_step {s t : Drain} {a : Label} (h : s.inflight = s.live)
    (htrans : Transition s a t) : t.inflight = t.live := by
  cases htrans with
  | register =>
      simp [Drain.live, Drain.openRegistration, List.countP_append, DispatchPhase.isLive] at h ⊢
      omega
  | submit d hphase =>
      simp [Drain.live, Drain.openRegistration, List.countP_append, WritePhase.isLive] at h ⊢
      omega
  | move d old new hphase hold hnew hbegins =>
      simp only [Drain.live, Drain.setDispatch, countP_set_of_counted hphase hold hnew] at h ⊢
      exact h
  | release d hphase =>
      have hset : (s.dispatches.set d .released).countP DispatchPhase.isLive + 1 =
          s.dispatches.countP DispatchPhase.isLive := countP_set_of_ended hphase rfl rfl
      simp only [Drain.live, Drain.setDispatch, Drain.dropRegistration] at h ⊢
      omega
  | startWrite w hphase =>
      have hset : (s.writes.set w .running).countP WritePhase.isLive =
          s.writes.countP WritePhase.isLive := countP_set_of_counted hphase rfl rfl
      simp only [Drain.live, Drain.setWrite, hset] at h ⊢
      exact h
  | endWrite w old hphase hold =>
      have hset : (s.writes.set w .ended).countP WritePhase.isLive + 1 =
          s.writes.countP WritePhase.isLive := countP_set_of_ended hphase hold rfl
      simp only [Drain.live, Drain.setWrite, Drain.dropRegistration] at h ⊢
      omega
  | shutdown => exact h
  | observe hcancel => exact h

theorem Settled.not_polling {s : Drain} (h : Settled s) (d : Nat) :
    s.dispatches[d]? ≠ some DispatchPhase.polling :=
  fun hphase => h.noPoll _ (List.mem_of_getElem? hphase) rfl

/-- Nothing leaves the settled state. -/
theorem settled_step {s t : Drain} {a : Label} (h : Settled s) (htrans : Transition s a t) :
    Settled t := by
  cases htrans with
  | register => exact ⟨h.cancelled, forall_mem_concat h.noPoll (by decide), h.noWrite⟩
  | submit d hphase => exact absurd hphase (h.not_polling d)
  | move d old new hphase hold hnew hbegins =>
      -- a poll that starts now takes the cancel branch
      have hne : new ≠ .polling := by
        intro heq
        have hclear := hbegins heq
        rw [h.cancelled] at hclear
        cases hclear
      exact ⟨h.cancelled, forall_mem_set h.noPoll d hne, h.noWrite⟩
  | release d hphase => exact ⟨h.cancelled, forall_mem_set h.noPoll d (by decide), h.noWrite⟩
  | startWrite w hphase =>
      have hended := h.noWrite .queued (List.mem_of_getElem? hphase)
      cases hended
  | endWrite w old hphase hold => exact ⟨h.cancelled, h.noPoll, forall_mem_set h.noWrite w rfl⟩
  | shutdown => exact ⟨rfl, h.noPoll, h.noWrite⟩
  | observe hcancel => exact ⟨h.cancelled, h.noPoll, h.noWrite⟩

theorem returned_step {s t : Drain} {a : Label} (htrans : Transition s a t) :
    t.returned = s.returned ∨ (s.cancel = true ∧ t = { s with returned := some s.inflight }) := by
  cases htrans with
  | observe hcancel => exact Or.inr ⟨hcancel, rfl⟩
  | _ => exact Or.inl rfl

theorem inv_step (s : Drain) (a : Label) (t : Drain) (h : Inv s) (hstep : step s a = some t) :
    Inv t := by
  have htrans := transition_of_step hstep
  refine ⟨counted_step h.counted htrans, ?_⟩
  intro hzero
  rcases returned_step htrans with hsame | ⟨hcancel, rfl⟩
  · exact settled_step (h.settled (hsame ▸ hzero)) htrans
  · -- the observation itself: the count it read is the number of live registrations
    have hcount : s.inflight = 0 := Option.some.inj hzero
    have hsettled := settled_of_live_eq_zero hcancel (h.counted ▸ hcount)
    exact ⟨hsettled.cancelled, hsettled.noPoll, hsettled.noWrite⟩

theorem inv_of_run {labels : List Label} {s : Drain} (hrun : run step .new labels = some s) :
    Inv s :=
  invariant_of_run inv_step inv_new hrun

/-- A label that drops a registration finds one to drop. -/
theorem inflight_pos_of_drops {s t : Drain} {a : Label} (h : s.inflight = s.live)
    (hstep : step s a = some t) (hdrops : a.drops = true) : 0 < s.inflight := by
  rw [h]
  cases a with
  | release d =>
      simp only [step] at hstep
      split at hstep
      · rename_i hphase
        exact live_of_dispatch hphase rfl
      · cases hstep
  | finishWrite w =>
      simp only [step] at hstep
      split at hstep
      · rename_i hphase
        exact live_of_write hphase rfl
      · cases hstep
  | dropWrite w =>
      simp only [step] at hstep
      split at hstep
      · rename_i hphase
        exact live_of_write hphase rfl
      · cases hstep
  | _ => cases hdrops

/-- In the settled state no enabled label runs a body or a write. -/
theorem not_runsWork_of_settled {s t : Drain} {a : Label} (h : Settled s)
    (hstep : step s a = some t) : runsWork s a = false := by
  have hwrite : ∀ (w : Nat) (phase : WritePhase), s.writes[w]? = some phase → phase = .ended :=
    fun w phase hphase => h.noWrite phase (List.mem_of_getElem? hphase)
  cases a with
  | beginPoll d => simp [runsWork, h.cancelled]
  | submitWrite d | yieldBody d | finishBody d =>
      simp only [step] at hstep
      split at hstep
      · rename_i hphase
        exact absurd hphase (h.not_polling d)
      · cases hstep
  | startWrite w | finishWrite w =>
      simp only [step] at hstep
      split at hstep
      · rename_i hphase
        cases hwrite w _ hphase
      · cases hstep
  | _ => rfl

/-- **A clean drain is terminal.**  In every reachable state the in-flight count
    is the number of live registrations, and no drop of a registration finds it
    at zero.  Once `shutdown` has returned `0`, no step of any continuation
    polls a dispatch body or runs a blocking write. -/
theorem clean_drain_is_terminal (labels : List Label) (s : Drain)
    (hrun : run step .new labels = some s) :
    s.inflight = s.live ∧
      AllSteps step (fun u a => a.drops = true → 0 < u.inflight) .new labels ∧
      (s.returned = some 0 → ∀ after t, run step s after = some t →
        AllSteps step (fun u a => runsWork u a = false) s after) := by
  have hinv := inv_of_run hrun
  refine ⟨hinv.counted, ?_, ?_⟩
  · exact allSteps_of_run inv_step
      (fun u a v hu hstep hdrops => inflight_pos_of_drops hu.counted hstep hdrops) inv_new hrun
  · intro hzero after t hafter
    exact allSteps_of_run (fun u a v hu hstep => settled_step hu (transition_of_step hstep))
      (fun u a v hu hstep => not_runsWork_of_settled hu hstep) (hinv.settled hzero) hafter

/-- A dispatch is cut while its write is still queued; the drain waits for the
    write. -/
def cutWithQueuedWrite : List Label :=
  [.register, .beginPoll 0, .submitWrite 0, .yieldBody 0, .shutdown, .beginPoll 0, .release 0,
   .startWrite 0, .finishWrite 0, .observe]

/-- A dispatch that registers after the drain. -/
def lateRegistration : List Label := [.register, .beginPoll 1, .release 1]

theorem clean_drain_cutWithQueuedWrite :
    ∃ s t, run step .new cutWithQueuedWrite = some s ∧ s.returned = some 0 ∧
      run step s lateRegistration = some t ∧ s.inflight = s.live ∧
      AllSteps step (fun u a => runsWork u a = false) s lateRegistration := by
  refine ⟨_, _, rfl, rfl, rfl, ?_⟩
  have hdrain := clean_drain_is_terminal cutWithQueuedWrite _ rfl
  exact ⟨hdrain.1, hdrain.2.2 rfl lateRegistration _ rfl⟩

end RustyImap.Shutdown
