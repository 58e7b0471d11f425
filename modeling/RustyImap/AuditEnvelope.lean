import RustyImap.LabelledRuns
import RustyImap.TaskTable

/-!
# The audit envelope of a tool call

`run_with_audit_envelope` and `AuditEnvelopeGuard`
(`rimap-server/src/mcp/audit_envelope.rs`) with the cancellation channel and its
drainer (`rimap-audit/src/cancellation.rs`), as a transition system over any
number of calls.

The two awaited writes are blocking jobs: a job that has been submitted runs,
in any order with the others, whether or not somebody still awaits it.  So a
call is in one of these places: its `tool_start` job pending, the job done but
the future not resumed, inside the body with the guard armed, awaiting its
`tool_end` job with the guard disarmed.  `Label.drop` may hit any of them.
Between two awaits the future runs without interruption, so disarming the guard
and submitting the `tool_end` job are one step.

Every submitted job succeeds, and a job allocates its sequence number and writes
its record in one step: neither the pairing nor the counts depend on the order
of records in the file.
-/

namespace RustyImap.Envelope

open RustyImap.LabelledRuns RustyImap.TaskTable

abbrev Seq := Nat

inductive ToolStatus where
  | ok
  | error
  | cancelled
deriving DecidableEq, Repr

inductive Payload where
  | toolStart
  | toolEnd (startSeq : Seq) (status : ToolStatus)
deriving DecidableEq, Repr

structure Record where
  seq : Seq
  payload : Payload
deriving DecidableEq, Repr

inductive CallPhase where
  | starting                -- awaiting the `tool_start` job
  | detached                -- dropped while that job was pending
  | started (seq : Seq)     -- job done, future not resumed
  | inBody (seq : Seq)      -- guard armed
  | ending (job : Nat)      -- guard disarmed, awaiting a `tool_end` job
  | ended
deriving DecidableEq, Repr

/-- A `tool_end` job, submitted by a call or by the drainer. -/
structure EndJob where
  startSeq : Seq
  status : ToolStatus
  written : Bool
deriving DecidableEq, Repr

def CHANNEL_CAPACITY : Nat := 1024

structure State where
  calls : List CallPhase
  endJobs : List EndJob
  channel : List Seq         -- queued cancellations, by their `start_seq`
  drainer : Option Nat       -- the job the drainer awaits
  nextSeq : Seq
  log : List Record
deriving DecidableEq, Repr

namespace State

def init (firstSeq : Seq) : State where
  calls := []
  endJobs := []
  channel := []
  drainer := none
  nextSeq := firstSeq
  log := []

/-- `AuditWriter::emit`. -/
def emit (s : State) (payload : Payload) : State :=
  { s with nextSeq := s.nextSeq + 1, log := s.log ++ [⟨s.nextSeq, payload⟩] }

def setCall (s : State) (c : Nat) (phase : CallPhase) : State :=
  { s with calls := s.calls.set c phase }

def submitEnd (s : State) (startSeq : Seq) (status : ToolStatus) : State :=
  { s with endJobs := s.endJobs ++ [⟨startSeq, status, false⟩] }

/-- `CancelledToolEndSender::try_send` from the guard's drop: a full channel
    discards the record. -/
def trySend (s : State) (startSeq : Seq) : State :=
  if s.channel.length < CHANNEL_CAPACITY then { s with channel := s.channel ++ [startSeq] } else s

end State

inductive Label where
  | call
  | runStart (c : Nat)
  | resumeStart (c : Nat)
  | finishBody (c : Nat) (succeeded : Bool)
  | runEnd (j : Nat)
  | resumeEnd (c : Nat)
  | drop (c : Nat)
  | recv
  | drained
deriving DecidableEq, Repr

def step (s : State) : Label → Option State
  | .call => some { s with calls := s.calls ++ [.starting] }
  | .runStart c =>
      match s.calls[c]? with
      | some .starting => some ((s.emit .toolStart).setCall c (.started s.nextSeq))
      | some .detached => some ((s.emit .toolStart).setCall c .ended)
      | _ => none
  | .resumeStart c =>
      match s.calls[c]? with
      | some (.started seq) => some (s.setCall c (.inBody seq))
      | _ => none
  | .finishBody c succeeded =>
      match s.calls[c]? with
      | some (.inBody seq) =>
          some ((s.submitEnd seq (if succeeded then .ok else .error)).setCall c
            (.ending s.endJobs.length))
      | _ => none
  | .runEnd j =>
      match s.endJobs[j]? with
      | some ⟨startSeq, status, false⟩ =>
          some { s.emit (.toolEnd startSeq status) with
            endJobs := s.endJobs.set j ⟨startSeq, status, true⟩ }
      | _ => none
  | .resumeEnd c =>
      match s.calls[c]? with
      | some (.ending j) =>
          match s.endJobs[j]? with
          | some ⟨_, _, true⟩ => some (s.setCall c .ended)
          | _ => none
      | _ => none
  | .drop c =>
      match s.calls[c]? with
      | some .starting => some (s.setCall c .detached)
      | some (.started _) => some (s.setCall c .ended)
      | some (.inBody seq) => some ((s.trySend seq).setCall c .ended)
      | some (.ending _) => some (s.setCall c .ended)
      | _ => none
  | .recv =>
      match s.channel, s.drainer with
      | startSeq :: rest, none =>
          some { s.submitEnd startSeq .cancelled with
            channel := rest, drainer := some s.endJobs.length }
      | _, _ => none
  | .drained =>
      match s.drainer with
      | some j =>
          match s.endJobs[j]? with
          | some ⟨_, _, true⟩ => some { s with drainer := none }
          | _ => none
      | none => none

/-! ## Everything a step can do -/

inductive Transition (s : State) : Label → State → Prop where
  | call : Transition s .call { s with calls := s.calls ++ [.starting] }
  | runStart (c : Nat) (hphase : s.calls[c]? = some .starting) :
      Transition s (.runStart c) ((s.emit .toolStart).setCall c (.started s.nextSeq))
  | runDetached (c : Nat) (hphase : s.calls[c]? = some .detached) :
      Transition s (.runStart c) ((s.emit .toolStart).setCall c .ended)
  | resumeStart (c : Nat) (seq : Seq) (hphase : s.calls[c]? = some (.started seq)) :
      Transition s (.resumeStart c) (s.setCall c (.inBody seq))
  | finishBody (c : Nat) (seq : Seq) (succeeded : Bool) (status : ToolStatus)
      (hphase : s.calls[c]? = some (.inBody seq)) :
      Transition s (.finishBody c succeeded)
        ((s.submitEnd seq status).setCall c (.ending s.endJobs.length))
  | runEnd (j : Nat) (startSeq : Seq) (status : ToolStatus)
      (hjob : s.endJobs[j]? = some ⟨startSeq, status, false⟩) :
      Transition s (.runEnd j) { s.emit (.toolEnd startSeq status) with
        endJobs := s.endJobs.set j ⟨startSeq, status, true⟩ }
  | resumeEnd (c j : Nat) (hphase : s.calls[c]? = some (.ending j)) :
      Transition s (.resumeEnd c) (s.setCall c .ended)
  | dropStarting (c : Nat) (hphase : s.calls[c]? = some .starting) :
      Transition s (.drop c) (s.setCall c .detached)
  | dropStarted (c : Nat) (seq : Seq) (hphase : s.calls[c]? = some (.started seq)) :
      Transition s (.drop c) (s.setCall c .ended)
  | dropInBody (c : Nat) (seq : Seq) (hphase : s.calls[c]? = some (.inBody seq)) :
      Transition s (.drop c) ((s.trySend seq).setCall c .ended)
  | dropEnding (c j : Nat) (hphase : s.calls[c]? = some (.ending j)) :
      Transition s (.drop c) (s.setCall c .ended)
  | recv (startSeq : Seq) (rest : List Seq) (hchannel : s.channel = startSeq :: rest)
      (hidle : s.drainer = none) :
      Transition s .recv { s.submitEnd startSeq .cancelled with
        channel := rest, drainer := some s.endJobs.length }
  | drained (j : Nat) (hbusy : s.drainer = some j) :
      Transition s .drained { s with drainer := none }

theorem transition_of_step {s t : State} {a : Label} (h : step s a = some t) :
    Transition s a t := by
  cases a with
  | call => cases h; exact .call
  | runStart c =>
      simp only [step] at h
      split at h
      · rename_i hphase
        cases h
        exact .runStart c hphase
      · rename_i hphase
        cases h
        exact .runDetached c hphase
      · cases h
  | resumeStart c =>
      simp only [step] at h
      split at h
      · rename_i seq hphase
        cases h
        exact .resumeStart c seq hphase
      · cases h
  | finishBody c succeeded =>
      simp only [step] at h
      split at h
      · rename_i seq hphase
        cases h
        exact .finishBody c seq succeeded _ hphase
      · cases h
  | runEnd j =>
      simp only [step] at h
      split at h
      · rename_i startSeq status hjob
        cases h
        exact .runEnd j startSeq status hjob
      · cases h
  | resumeEnd c =>
      simp only [step] at h
      split at h
      · rename_i j hphase
        split at h
        · cases h
          exact .resumeEnd c j hphase
        · cases h
      · cases h
  | drop c =>
      simp only [step] at h
      split at h
      · rename_i hphase
        cases h
        exact .dropStarting c hphase
      · rename_i seq hphase
        cases h
        exact .dropStarted c seq hphase
      · rename_i seq hphase
        cases h
        exact .dropInBody c seq hphase
      · rename_i j hphase
        cases h
        exact .dropEnding c j hphase
      · cases h
  | recv =>
      simp only [step] at h
      split at h
      · rename_i startSeq rest hchannel hidle
        cases h
        exact .recv startSeq rest hchannel hidle
      · cases h
  | drained =>
      simp only [step] at h
      split at h
      · rename_i j hbusy
        split at h
        · cases h
          exact .drained j hbusy
        · cases h
      · cases h

/-! ## Accounts of one sequence number

A `tool_start` record with number `n` opens a debt of one `tool_end` record.
The debt is held by the call that will resume with `n`, then by a `tool_end` job
or by the channel, and is paid when a record goes to the log.  `lost` is the
debt that a step writes off. -/

def CallPhase.owes (n : Seq) : CallPhase → Bool
  | .started seq | .inBody seq => seq == n
  | _ => false

def EndJob.owes (n : Seq) (job : EndJob) : Bool := job.startSeq == n && !job.written

def Record.isStart (n : Seq) (r : Record) : Bool := r.seq == n && r.payload == .toolStart

def Record.isEndOf (n : Seq) (r : Record) : Bool :=
  match r.payload with
  | .toolStart => false
  | .toolEnd startSeq _ => startSeq == n

namespace State

/-- `tool_start` records with number `n`. -/
def starts (s : State) (n : Seq) : Nat := s.log.countP (Record.isStart n)

/-- `tool_end` records that carry `n` as their `start_seq`. -/
def ends (s : State) (n : Seq) : Nat := s.log.countP (Record.isEndOf n)

def owed (s : State) (n : Seq) : Nat :=
  s.calls.countP (CallPhase.owes n) + s.endJobs.countP (EndJob.owes n) +
    s.channel.countP (· == n)

end State

def lost (s : State) (n : Seq) : Label → Nat
  | .runStart c => if s.calls[c]? = some .detached ∧ s.nextSeq = n then 1 else 0
  | .drop c =>
      match s.calls[c]? with
      | some (.started seq) => if seq = n then 1 else 0
      | some (.inBody seq) => if seq = n ∧ CHANNEL_CAPACITY ≤ s.channel.length then 1 else 0
      | _ => 0
  | _ => 0

/-- **Balance of one step.**  What is owed or paid moves with the number of
    `tool_start` records, except for what the step writes off. -/
theorem balance_step {s t : State} {a : Label} (htrans : Transition s a t) (n : Seq) :
    t.owed n + t.ends n + s.starts n + lost s n a = s.owed n + s.ends n + t.starts n := by
  cases htrans with
  | call =>
      simp [State.owed, State.ends, State.starts, lost, CallPhase.owes]
  | runStart c hphase =>
      have hcalls := countP_set_add (p := CallPhase.owes n) hphase (.started s.nextSeq)
      by_cases hn : s.nextSeq = n <;>
        simp [State.owed, State.ends, State.starts, State.emit, State.setCall, lost, hphase,
          CallPhase.owes, Record.isStart, Record.isEndOf, hn] at hcalls ⊢ <;> omega
  | runDetached c hphase =>
      have hcalls := countP_set_add (p := CallPhase.owes n) hphase .ended
      by_cases hn : s.nextSeq = n <;>
        simp [State.owed, State.ends, State.starts, State.emit, State.setCall, lost, hphase,
          CallPhase.owes, Record.isStart, Record.isEndOf, hn] at hcalls ⊢ <;> omega
  | resumeStart c seq hphase =>
      have hcalls := countP_set_add (p := CallPhase.owes n) hphase (.inBody seq)
      by_cases hn : seq = n <;>
        simp [State.owed, State.ends, State.starts, State.setCall, lost,
          CallPhase.owes, hn] at hcalls ⊢ <;> omega
  | finishBody c seq succeeded status hphase =>
      have hcalls := countP_set_add (p := CallPhase.owes n) hphase (.ending s.endJobs.length)
      by_cases hn : seq = n <;>
        simp [State.owed, State.ends, State.starts, State.submitEnd, State.setCall, lost,
          CallPhase.owes, EndJob.owes, hn] at hcalls ⊢ <;> omega
  | runEnd j startSeq status hjob =>
      have hjobs := countP_set_add (p := EndJob.owes n) hjob ⟨startSeq, status, true⟩
      by_cases hn : startSeq = n <;>
        simp [State.owed, State.ends, State.starts, State.emit, lost, EndJob.owes,
          Record.isStart, Record.isEndOf, hn] at hjobs ⊢ <;> omega
  | resumeEnd c j hphase =>
      have hcalls := countP_set_add (p := CallPhase.owes n) hphase .ended
      simp [State.owed, State.ends, State.starts, State.setCall, lost, CallPhase.owes] at hcalls ⊢
      omega
  | dropStarting c hphase =>
      have hcalls := countP_set_add (p := CallPhase.owes n) hphase .detached
      simp [State.owed, State.ends, State.starts, State.setCall, lost, hphase,
        CallPhase.owes] at hcalls ⊢
      omega
  | dropStarted c seq hphase =>
      have hcalls := countP_set_add (p := CallPhase.owes n) hphase .ended
      by_cases hn : seq = n <;>
        simp [State.owed, State.ends, State.starts, State.setCall, lost, hphase,
          CallPhase.owes, hn] at hcalls ⊢ <;> omega
  | dropInBody c seq hphase =>
      have hcalls := countP_set_add (p := CallPhase.owes n) hphase .ended
      by_cases hroom : s.channel.length < CHANNEL_CAPACITY
      · have hfull : ¬ CHANNEL_CAPACITY ≤ s.channel.length := Nat.not_le.mpr hroom
        by_cases hn : seq = n <;>
          simp [State.owed, State.ends, State.starts, State.setCall, State.trySend, lost, hphase,
            CallPhase.owes, hn, hroom, hfull] at hcalls ⊢ <;> omega
      · have hfull : CHANNEL_CAPACITY ≤ s.channel.length := Nat.not_lt.mp hroom
        by_cases hn : seq = n <;>
          simp [State.owed, State.ends, State.starts, State.setCall, State.trySend, lost, hphase,
            CallPhase.owes, hn, hroom, hfull] at hcalls ⊢ <;> omega
  | dropEnding c j hphase =>
      have hcalls := countP_set_add (p := CallPhase.owes n) hphase .ended
      simp [State.owed, State.ends, State.starts, State.setCall, lost, hphase,
        CallPhase.owes] at hcalls ⊢
      omega
  | recv startSeq rest hchannel hidle =>
      by_cases hn : startSeq = n
      · simp [State.owed, State.ends, State.starts, State.submitEnd, lost, EndJob.owes, hchannel,
          hn]
        omega
      · simp [State.owed, State.ends, State.starts, State.submitEnd, lost, EndJob.owes, hchannel,
          hn]
  | drained j hbusy => simp [State.owed, State.ends, State.starts, lost]

/-! ## Well-formed states -/

structure Inv (s : State) : Prop where
  fresh : ∀ r ∈ s.log, r.seq < s.nextSeq
  once : ∀ n, s.starts n ≤ 1
  endings : ∀ phase ∈ s.calls, ∀ j, phase = .ending j → j < s.endJobs.length
  awaited : ∀ j, s.drainer = some j → j < s.endJobs.length

theorem inv_init (firstSeq : Seq) : Inv (.init firstSeq) where
  fresh r hr := by cases hr
  once n := Nat.zero_le 1
  endings phase hphase := by cases hphase
  awaited j hj := by cases hj

/-- A number that is still to be allocated has no record. -/
theorem starts_eq_zero {s : State} (h : Inv s) {n : Seq} (hn : s.nextSeq ≤ n) :
    s.starts n = 0 := by
  apply List.countP_eq_zero.mpr
  intro r hr hstart
  simp only [Record.isStart, Bool.and_eq_true, beq_iff_eq] at hstart
  have hlt := h.fresh r hr
  rw [hstart.1] at hlt
  exact absurd hlt (Nat.not_lt.mpr hn)

theorem fresh_emit {s : State} (h : Inv s) (payload : Payload) :
    ∀ r ∈ (s.emit payload).log, r.seq < (s.emit payload).nextSeq := by
  apply forall_mem_concat
  · intro r hr
    exact Nat.lt_succ_of_lt (h.fresh r hr)
  · exact Nat.lt_succ_self _

theorem once_emit {s : State} (h : Inv s) (payload : Payload) (n : Seq) :
    (s.emit payload).starts n ≤ 1 := by
  have hold := h.once n
  by_cases hn : s.nextSeq = n
  · have hzero := starts_eq_zero h (Nat.le_of_eq hn)
    simp only [State.starts, State.emit, List.countP_append] at hzero ⊢
    have hone := List.countP_le_length (p := Record.isStart n) (l := [⟨s.nextSeq, payload⟩])
    simp only [List.length_singleton] at hone
    omega
  · simpa [State.starts, State.emit, Record.isStart, hn] using hold

theorem inv_step (s : State) (a : Label) (t : State) (h : Inv s) (hstep : step s a = some t) :
    Inv t := by
  cases transition_of_step hstep with
  | call =>
      exact ⟨h.fresh, h.once, forall_mem_concat h.endings nofun, h.awaited⟩
  | runStart c hphase =>
      exact ⟨fresh_emit h _, once_emit h _, forall_mem_set h.endings c nofun, h.awaited⟩
  | runDetached c hphase =>
      exact ⟨fresh_emit h _, once_emit h _, forall_mem_set h.endings c nofun, h.awaited⟩
  | resumeStart c seq hphase =>
      exact ⟨h.fresh, h.once, forall_mem_set h.endings c nofun, h.awaited⟩
  | finishBody c seq succeeded status hphase =>
      have hlen : (s.submitEnd seq status).endJobs.length = s.endJobs.length + 1 := by
        simp [State.submitEnd]
      refine ⟨h.fresh, h.once, forall_mem_set ?_ c ?_, ?_⟩
      · intro phase hmem j hj
        have hlt := h.endings phase hmem j hj
        simp only [State.setCall, hlen]
        omega
      · intro j hj
        cases hj
        simp only [State.setCall, hlen]
        omega
      · intro j hj
        have hlt := h.awaited j hj
        simp only [State.setCall, hlen]
        omega
  | runEnd j startSeq status hjob =>
      refine ⟨fresh_emit h _, once_emit h _, ?_, ?_⟩
      · simpa [State.emit] using h.endings
      · simpa [State.emit] using h.awaited
  | resumeEnd c j hphase =>
      exact ⟨h.fresh, h.once, forall_mem_set h.endings c nofun, h.awaited⟩
  | dropStarting c hphase =>
      exact ⟨h.fresh, h.once, forall_mem_set h.endings c nofun, h.awaited⟩
  | dropStarted c seq hphase =>
      exact ⟨h.fresh, h.once, forall_mem_set h.endings c nofun, h.awaited⟩
  | dropInBody c seq hphase =>
      by_cases hroom : s.channel.length < CHANNEL_CAPACITY
      · rw [State.trySend, if_pos hroom]
        exact ⟨h.fresh, h.once, forall_mem_set h.endings c nofun, h.awaited⟩
      · rw [State.trySend, if_neg hroom]
        exact ⟨h.fresh, h.once, forall_mem_set h.endings c nofun, h.awaited⟩
  | dropEnding c j hphase =>
      exact ⟨h.fresh, h.once, forall_mem_set h.endings c nofun, h.awaited⟩
  | recv startSeq rest hchannel hidle =>
      have hlen : (s.submitEnd startSeq .cancelled).endJobs.length = s.endJobs.length + 1 := by
        simp [State.submitEnd]
      refine ⟨h.fresh, h.once, ?_, ?_⟩
      · intro phase hmem j hj
        have hlt := h.endings phase hmem j hj
        simp only [hlen]
        omega
      · intro j hj
        cases hj
        simp only [hlen]
        omega
  | drained j hbusy => exact ⟨h.fresh, h.once, h.endings, nofun⟩

/-! ## Runs without a lost debt -/

/-- The future is not dropped while it awaits its `tool_start` write, and when an
    armed guard is dropped the channel has room. -/
def keepsEnvelope (s : State) : Label → Bool
  | .drop c =>
      match s.calls[c]? with
      | some .starting | some (.started _) => false
      | some (.inBody _) => decide (s.channel.length < CHANNEL_CAPACITY)
      | _ => true
  | _ => true

structure Balanced (s : State) : Prop where
  inv : Inv s
  attended : ∀ phase ∈ s.calls, phase ≠ .detached
  balance : ∀ n, s.owed n + s.ends n = s.starts n

theorem balanced_init (firstSeq : Seq) : Balanced (.init firstSeq) where
  inv := inv_init firstSeq
  attended phase hphase := by cases hphase
  balance n := rfl

theorem lost_eq_zero {s : State} {a : Label} (hattended : ∀ phase ∈ s.calls, phase ≠ .detached)
    (hkeeps : keepsEnvelope s a = true) (n : Seq) : lost s n a = 0 := by
  cases a with
  | runStart c =>
      have hne : s.calls[c]? ≠ some CallPhase.detached :=
        fun hphase => hattended _ (List.mem_of_getElem? hphase) rfl
      simp [lost, hne]
  | drop c =>
      simp only [keepsEnvelope] at hkeeps
      simp only [lost]
      split
      · rename_i seq hphase
        rw [hphase] at hkeeps
        cases hkeeps
      · rename_i seq hphase
        rw [hphase] at hkeeps
        have hroom := of_decide_eq_true hkeeps
        rw [if_neg fun hfull => absurd hfull.2 (Nat.not_le.mpr hroom)]
      · rfl
  | _ => rfl

theorem attended_step {s t : State} {a : Label} (h : ∀ phase ∈ s.calls, phase ≠ .detached)
    (hkeeps : keepsEnvelope s a = true) (htrans : Transition s a t) :
    ∀ phase ∈ t.calls, phase ≠ .detached := by
  cases htrans with
  | call => exact forall_mem_concat h nofun
  | runStart c hphase => exact forall_mem_set h c nofun
  | runDetached c hphase => exact forall_mem_set h c nofun
  | resumeStart c seq hphase => exact forall_mem_set h c nofun
  | finishBody c seq succeeded status hphase => exact forall_mem_set h c nofun
  | runEnd j startSeq status hjob => exact h
  | resumeEnd c j hphase => exact forall_mem_set h c nofun
  | dropStarting c hphase =>
      -- the one step that detaches a pending `tool_start` job
      simp [keepsEnvelope, hphase] at hkeeps
  | dropStarted c seq hphase => exact forall_mem_set h c nofun
  | dropInBody c seq hphase =>
      have hcalls : (s.trySend seq).calls = s.calls := by
        unfold State.trySend
        split <;> rfl
      simp only [State.setCall, hcalls]
      exact forall_mem_set h c nofun
  | dropEnding c j hphase => exact forall_mem_set h c nofun
  | recv startSeq rest hchannel hidle => exact h
  | drained j hbusy => exact h

theorem balanced_step (s : State) (a : Label) (t : State) (h : Balanced s)
    (hkeeps : keepsEnvelope s a = true) (hstep : step s a = some t) : Balanced t := by
  have htrans := transition_of_step hstep
  refine ⟨inv_step s a t h.inv hstep, attended_step h.attended hkeeps htrans, ?_⟩
  intro n
  have hmoves := balance_step htrans n
  have hkept := lost_eq_zero h.attended hkeeps n
  have hbefore := h.balance n
  omega

def NeverOverpaid (s : State) : Prop := Inv s ∧ ∀ n, s.owed n + s.ends n ≤ s.starts n

theorem neverOverpaid_step (s : State) (a : Label) (t : State) (h : NeverOverpaid s)
    (hstep : step s a = some t) : NeverOverpaid t := by
  refine ⟨inv_step s a t h.1 hstep, ?_⟩
  intro n
  have hmoves := balance_step (transition_of_step hstep) n
  have hbefore := h.2 n
  omega

/-- In every run, dropped futures or not, a `tool_start` number is closed at most
    once. -/
theorem ends_le_one {firstSeq : Seq} {labels : List Label} {s : State}
    (hrun : run step (.init firstSeq) labels = some s) (n : Seq) : s.ends n ≤ 1 := by
  have hinit : NeverOverpaid (.init firstSeq) := ⟨inv_init firstSeq, fun _ => Nat.le_refl _⟩
  obtain ⟨hinv, hle⟩ := invariant_of_run neverOverpaid_step hinit hrun
  have honce := hinv.once n
  have hbefore := hle n
  omega

/-! ## Every debt is paid

Work left is weighed so that every step but a new call lowers it: a call in its
body may still become a `tool_end` job or a channel entry, and a channel entry a
job of the drainer. -/

def CallPhase.weight : CallPhase → Nat
  | .starting => 6
  | .started _ => 5
  | .inBody _ => 4
  | .ending _ => 1
  | .detached => 1
  | .ended => 0

def State.pending (s : State) : Nat :=
  (s.calls.map CallPhase.weight).sum + 3 * s.channel.length +
    s.endJobs.countP (fun job => !job.written) + s.drainer.toList.length

/-- What a call weighs less the work weighs less. -/
theorem pending_setCall {s : State} {c : Nat} {phase next : CallPhase}
    (hphase : s.calls[c]? = some phase) (hless : next.weight < phase.weight) :
    (s.setCall c next).pending < s.pending := by
  have hcalls := sum_map_set_add CallPhase.weight hphase next
  simp only [State.pending, State.setCall]
  omega

theorem pending_step {s t : State} {a : Label} (htrans : Transition s a t) (ha : a ≠ .call) :
    t.pending < s.pending := by
  cases htrans with
  | call => exact absurd rfl ha
  | runStart c hphase =>
      have hemit : (s.emit .toolStart).pending = s.pending := rfl
      rw [← hemit]
      exact pending_setCall hphase (Nat.lt_succ_self 5)
  | runDetached c hphase =>
      have hemit : (s.emit .toolStart).pending = s.pending := rfl
      rw [← hemit]
      exact pending_setCall hphase Nat.one_pos
  | resumeStart c seq hphase => exact pending_setCall hphase (Nat.lt_succ_self 4)
  | finishBody c seq succeeded status hphase =>
      have hcalls := sum_map_set_add CallPhase.weight hphase
        (.ending s.endJobs.length)
      simp only [CallPhase.weight] at hcalls
      simp only [State.pending, State.setCall, State.submitEnd, List.countP_append,
        List.countP_singleton]
      simp only [Bool.not_false, if_true]
      omega
  | runEnd j startSeq status hjob =>
      have hjobs := countP_set_add (p := fun job => !job.written) hjob ⟨startSeq, status, true⟩
      simp at hjobs
      simp only [State.pending, State.emit]
      omega
  | resumeEnd c j hphase => exact pending_setCall hphase Nat.one_pos
  | dropStarting c hphase => exact pending_setCall hphase (show 1 < 6 by decide)
  | dropStarted c seq hphase => exact pending_setCall hphase (Nat.succ_pos 4)
  | dropInBody c seq hphase =>
      have hcalls := sum_map_set_add CallPhase.weight hphase .ended
      simp only [CallPhase.weight] at hcalls
      unfold State.trySend
      split
      · simp only [State.pending, State.setCall, List.length_append, List.length_singleton]
        omega
      · simp only [State.pending, State.setCall]
        omega
  | dropEnding c j hphase => exact pending_setCall hphase Nat.one_pos
  | recv startSeq rest hchannel hidle =>
      simp [State.pending, State.submitEnd, hchannel, hidle]
      omega
  | drained j hbusy =>
      simp [State.pending, hbusy]

theorem log_step {s t : State} {a : Label} (htrans : Transition s a t) :
    ∃ new, t.log = s.log ++ new := by
  cases htrans with
  | runStart c hphase => exact ⟨_, rfl⟩
  | runDetached c hphase => exact ⟨_, rfl⟩
  | runEnd j startSeq status hjob => exact ⟨_, rfl⟩
  | dropInBody c seq hphase =>
      refine ⟨[], ?_⟩
      unfold State.trySend
      split <;> simp [State.setCall]
  | _ => exact ⟨[], (List.append_nil _).symm⟩

theorem starts_le_step {s t : State} {a : Label} (htrans : Transition s a t) (n : Seq) :
    s.starts n ≤ t.starts n := by
  obtain ⟨new, hlog⟩ := log_step htrans
  simp only [State.starts, hlog, List.countP_append]
  omega

/-- An unwritten job can run. -/
theorem exists_runEnd {s : State} {j : Nat} {job : EndJob} (hjob : s.endJobs[j]? = some job)
    (hwritten : job.written = false) : ∃ t, step s (.runEnd j) = some t := by
  obtain ⟨startSeq, status, written⟩ := job
  simp only at hwritten
  subst hwritten
  exact ⟨_, by simp only [step, hjob]; rfl⟩

/-- As long as a debt is open, some step other than a new call or a drop can be
    taken. -/
theorem exists_step_of_owed {s : State} (h : Inv s) {n : Seq} (howed : 0 < s.owed n) :
    ∃ a t, (a ≠ .call ∧ keepsEnvelope s a = true) ∧ step s a = some t := by
  have hcases : 0 < s.calls.countP (CallPhase.owes n) ∨ 0 < s.endJobs.countP (EndJob.owes n) ∨
      0 < s.channel.countP (· == n) := by
    simp only [State.owed] at howed
    omega
  rcases hcases with hcalls | hjobs | hchannel
  · obtain ⟨phase, hmem, howes⟩ := List.countP_pos_iff.mp hcalls
    obtain ⟨c, hc⟩ := List.getElem?_of_mem hmem
    cases phase with
    | started seq => exact ⟨.resumeStart c, _, ⟨nofun, rfl⟩, by simp only [step, hc]; rfl⟩
    | inBody seq => exact ⟨.finishBody c true, _, ⟨nofun, rfl⟩, by simp only [step, hc]; rfl⟩
    | _ => cases howes
  · obtain ⟨job, hmem, howes⟩ := List.countP_pos_iff.mp hjobs
    obtain ⟨j, hj⟩ := List.getElem?_of_mem hmem
    simp only [EndJob.owes, Bool.and_eq_true, Bool.not_eq_true'] at howes
    obtain ⟨t, ht⟩ := exists_runEnd hj howes.2
    exact ⟨.runEnd j, t, ⟨nofun, rfl⟩, ht⟩
  · obtain ⟨startSeq, hmem, -⟩ := List.countP_pos_iff.mp hchannel
    obtain ⟨first, rest, hfirst⟩ := List.exists_cons_of_ne_nil (List.ne_nil_of_mem hmem)
    cases hdrainer : s.drainer with
    | none => exact ⟨.recv, _, ⟨nofun, rfl⟩, by simp only [step, hfirst, hdrainer]; rfl⟩
    | some j =>
        -- the drainer is busy with a job that exists: it has run or can run
        obtain ⟨⟨startSeq', status, written⟩, hj⟩ : ∃ job, s.endJobs[j]? = some job :=
          ⟨_, List.getElem?_eq_getElem (h.awaited j hdrainer)⟩
        cases written with
        | true => exact ⟨.drained, _, ⟨nofun, rfl⟩, by simp only [step, hdrainer, hj]; rfl⟩
        | false =>
            obtain ⟨t, ht⟩ := exists_runEnd hj rfl
            exact ⟨.runEnd j, t, ⟨nofun, rfl⟩, ht⟩

def Started (n : Seq) (s : State) : Prop := Balanced s ∧ 0 < s.starts n

theorem started_step {n : Seq} (s : State) (a : Label) (t : State) (h : Started n s)
    (hok : a ≠ .call ∧ keepsEnvelope s a = true) (hstep : step s a = some t) : Started n t := by
  have hle := starts_le_step (transition_of_step hstep) n
  exact ⟨balanced_step s a t h.1 hok.2 hstep, Nat.lt_of_lt_of_le h.2 hle⟩

/-- **Every `tool_start` is paired, drops during its own write apart.**  In every
    run in which no future is dropped while it awaits its `tool_start` write and
    the channel has room for every cancellation: a `tool_start` record in the
    log is the only one with its number, at most one `tool_end` record carries
    that number, and however the pending work is scheduled from here, calls
    dropped or not, exactly one will. -/
theorem tool_start_paired (firstSeq : Seq) (labels : List Label) (s : State)
    (hkeeps : AllSteps step (fun u a => keepsEnvelope u a = true) (.init firstSeq) labels)
    (hrun : run step (.init firstSeq) labels = some s) (n : Seq) (hstart : 0 < s.starts n) :
    s.starts n = 1 ∧ s.ends n ≤ 1 ∧
      Inevitable step (fun u a => a ≠ .call ∧ keepsEnvelope u a = true)
        (fun u => u.ends n = 1) s := by
  have hbalanced : Balanced s :=
    invariant_of_allSteps balanced_step (balanced_init firstSeq) hkeeps hrun
  have honce := hbalanced.inv.once n
  refine ⟨by omega, ends_le_one hrun n, ?_⟩
  have hstarted : Started n s := ⟨hbalanced, hstart⟩
  refine inevitable_of_measure State.pending started_step ?_ ?_ hstarted
  · rintro u a v ⟨ha, -⟩ hstep
    exact pending_step (transition_of_step hstep) ha
  · rintro u ⟨hu, hpos⟩ hnot
    have hbalance := hu.balance n
    have honce := hu.inv.once n
    exact exists_step_of_owed (n := n) hu.inv (by omega)

/-- One call succeeds, a second one is dropped inside its body. -/
def oneDroppedInBody : List Label :=
  [.call, .call, .runStart 1, .runStart 0, .resumeStart 0, .resumeStart 1, .drop 1,
   .finishBody 0 true, .recv, .runEnd 1]

theorem tool_start_paired_oneDroppedInBody :
    ∃ s, run step (.init 0) oneDroppedInBody = some s ∧ s.starts 1 = 1 ∧ s.ends 1 = 0 ∧
      Inevitable step (fun u a => a ≠ .call ∧ keepsEnvelope u a = true)
        (fun u => u.ends 1 = 1) s := by
  refine ⟨_, rfl, rfl, rfl, ?_⟩
  exact (tool_start_paired 0 oneDroppedInBody _ (by decide) rfl 1 (by decide)).2.2

/-- The future is dropped while its `tool_start` write is queued; the write runs
    nevertheless. -/
def droppedBeforeStart : List Label := [.call, .drop 0, .runStart 0]

/-- The record stays alone: nothing is left that could close it. -/
theorem orphan_tool_start :
    ¬ ∀ (firstSeq : Seq) (labels : List Label) (s : State),
      run step (.init firstSeq) labels = some s → ∀ n, 0 < s.starts n →
        s.ends n ≤ 1 ∧ Inevitable step (fun _ a => a ≠ .call) (fun u => u.ends n = 1) s := by
  intro hall
  obtain ⟨-, hpaired⟩ := hall 0 droppedBeforeStart _ rfl 0 (by decide)
  have hends := hpaired.of_stuck ?_
  · exact absurd hends (by decide)
  · intro a t ha hstep
    have hless := pending_step (transition_of_step hstep) ha
    exact Nat.not_lt_zero _ hless

end RustyImap.Envelope
