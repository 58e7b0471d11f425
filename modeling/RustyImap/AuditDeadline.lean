import RustyImap.AuditWorker
import RustyImap.DeadlineQueue

/-!
# The write deadline of the audit log

`IoHandle::request` and `worker_loop` (`rimap-audit/src/writer/deadline.rs`) with
`write_record` (`writer/emit.rs`): any number of callers, the worker behind its channel,
and a caller that waits for its reply no longer than the deadline.

A caller holds the mutex over the channel from `send` to the end of its wait; `receive`
and `giveUp` are the two ends, and after the second one the request is still in the
channel.  `close` is the sender taken by `shutdown`.  The files are those of
`AuditWorker`.
-/

namespace RustyImap.AuditDeadline

open RustyImap.LabelledRuns RustyImap.DeadlineQueue
open RustyImap.AuditWorker (Worker Request Os Disk performWrite acknowledged)

structure Config extends AuditWorker.Config where
  writeDeadlineSeconds : Nat
  failOpen : Bool
deriving DecidableEq, Repr

/-- The errors of `request`; the worker's own, `WriteDeadline`, and `worker_gone`. -/
inductive AuditError where
  | worker (e : AuditWorker.AuditError)
  | writeDeadline (path : String) (deadlineSeconds : Nat)
deriving DecidableEq, Repr

abbrev Reply := Except AuditWorker.AuditError Unit

/-- What `request` returns in a phase of its call, none before it returns. -/
def requestResult (cfg : Config) : Phase Reply → Option (Except AuditError Unit)
  | .ready | .waiting => none
  | .replied (.ok ()) => some (.ok ())
  | .replied (.error e) => some (.error (.worker e))
  | .gaveUp => some (.error (.writeDeadline cfg.path cfg.writeDeadlineSeconds))
  | .refused => some (.error (.worker (.write cfg.path)))

/-- `write_record_inner` has failed. -/
def hasFailed (cfg : Config) (phase : Phase Reply) : Bool :=
  match requestResult cfg phase with
  | some (.error _) => true
  | some (.ok _) | none => false

/-- What `write_record` returns. -/
def writeRecord (cfg : Config) (phase : Phase Reply) : Option (Except AuditError Unit) :=
  (requestResult cfg phase).map fun
    | .ok () => .ok ()
    | .error e => if cfg.failOpen then .ok () else .error e

structure Writer where
  desk : Desk Worker Request Reply
  suppressedFailures : Nat

inductive Label where
  | io (label : DeadlineQueue.Label Request Os)
  | noteAuthWriteLost

def Config.isBounded (cfg : Config) : Bool := 0 < cfg.writeDeadlineSeconds

def ioStep (cfg : Config) (desk : Desk Worker Request Reply)
    (label : DeadlineQueue.Label Request Os) : Option (Desk Worker Request Reply) :=
  DeadlineQueue.step (performWrite cfg.toConfig) cfg.isBounded desk label

/-- The call that a step ends. -/
def endedCall : DeadlineQueue.Label Request Os → Option Nat
  | .submit i | .receive i | .giveUp i => some i
  | .enter _ | .serve _ | .close => none

/-- Does the step end a call whose failure `fail_open` suppresses? -/
def suppresses (cfg : Config) (desk : Desk Worker Request Reply)
    (label : DeadlineQueue.Label Request Os) : Bool :=
  cfg.failOpen && (endedCall label).any fun i => (phaseAt desk.calls i).any (hasFailed cfg)

def step (cfg : Config) (w : Writer) : Label → Option Writer
  | .io label => (ioStep cfg w.desk label).map fun desk =>
      ⟨desk, w.suppressedFailures + (suppresses cfg desk label).toNat⟩
  | .noteAuthWriteLost => some { w with suppressedFailures := w.suppressedFailures + 1 }

/-- `AuditWriter::open` on a file at the active path. -/
def Writer.opened (disk : Disk) (file : Nat) : Writer :=
  ⟨.opened (AuditWorker.System.opened disk file).worker, 0⟩

/-! ## What holds at every moment -/

section

variable {cfg : Config} {initial : Disk} {w w' : Writer}

/-- A step counts the failures of the call that it ends. -/
theorem total_hasFailed_moves {d d' : Desk Worker Request Reply}
    {label : DeadlineQueue.Label Request Os} (h : Consistent d)
    (hmove : Moves (performWrite cfg.toConfig) cfg.isBounded d label d') :
    total (fun phase => (hasFailed cfg phase).toNat) d'.calls =
      total (fun phase => (hasFailed cfg phase).toNat) d.calls +
        ((endedCall label).any fun i => (phaseAt d'.calls i).any (hasFailed cfg)).toNat := by
  have hended : ∀ {i old} new, phaseAt d.calls i = some old → hasFailed cfg old = false →
      total (fun phase => (hasFailed cfg phase).toNat) (setPhase d.calls i new) =
        total (fun phase => (hasFailed cfg phase).toNat) d.calls +
          ((some i).any fun i =>
            (phaseAt (setPhase d.calls i new) i).any (hasFailed cfg)).toNat := by
    intro i old new hold hnot
    have hsum := total_setPhase (fun phase => (hasFailed cfg phase).toNat) hold new
    rw [hnot] at hsum
    rw [Option.any_some, phaseAt_setPhase_self hold, Option.any_some]
    exact hsum
  cases hmove with
  | enter request => exact total_concat _ _
  | submit i hfree hready => exact hended .waiting hready rfl
  | refuse i hready => exact hended .refused hready rfl
  | receive i reply hholder hreply => exact hended _ ((h.holder i).mp hholder) rfl
  | giveUp i hbounded hholder hnone => exact hended _ ((h.holder i).mp hholder) rfl
  | serve i rest call choice hqueue hcall => rfl
  | close => rfl

/-- The condition on the system calls, for the request that is served. -/
def uncut (cfg : Config) (w : Writer) : Label → Bool
  | .io label => serves (fun worker request os =>
      AuditWorker.uncut cfg.toConfig ⟨worker, []⟩ (request, os)) w.desk label
  | .noteAuthWriteLost => true

structure Sound (cfg : Config) (initial : Disk) (w : Writer) : Prop where
  consistent : Consistent w.desk
  account : AuditWorker.Inv cfg.toConfig initial w.desk.server w.desk.transcript
  counted : cfg.failOpen = true →
    total (fun phase => (hasFailed cfg phase).toNat) w.desk.calls ≤ w.suppressedFailures

theorem Sound.step (h : Sound cfg initial w) {label : Label} (huncut : uncut cfg w label = true)
    (hstep : step cfg w label = some w') : Sound cfg initial w' := by
  rcases label with label | _
  · obtain ⟨desk, hdesk, rfl⟩ := Option.map_eq_some_iff.mp hstep
    have hmove := moves_of_step hdesk
    constructor
    · exact h.consistent.moves hmove
    · have hserve : ∀ worker log request os, AuditWorker.Inv cfg.toConfig initial worker log →
          AuditWorker.uncut cfg.toConfig ⟨worker, []⟩ (request, os) = true →
          AuditWorker.Inv cfg.toConfig initial (performWrite cfg.toConfig worker request os).1
            (log ++ [(request, (performWrite cfg.toConfig worker request os).2)]) := by
        intro worker log request os hinv hok
        exact AuditWorker.inv_step ⟨worker, log⟩ (request, os) _ hinv hok rfl
      exact kept_of_moves hserve h.account huncut hmove
    · intro hopen
      have hcounted := h.counted hopen
      rw [total_hasFailed_moves h.consistent hmove, suppresses, hopen, Bool.true_and]
      exact Nat.add_le_add_right hcounted _
  · cases hstep
    exact ⟨h.consistent, h.account, fun hopen => Nat.le_succ_of_le (h.counted hopen)⟩

theorem Sound.opened {disk : Disk} {file : Nat} (hdisk : disk.WellFormed file)
    (hend : AuditWorker.endsWithLine (disk.content file) = true) :
    Sound cfg disk (.opened disk file) where
  consistent := .opened _
  account := AuditWorker.inv_opened hdisk hend
  counted _ := Nat.zero_le _

theorem Sound.of_run {disk : Disk} {file : Nat} (hdisk : disk.WellFormed file)
    (hend : AuditWorker.endsWithLine (disk.content file) = true) {labels : List Label}
    (huncut : AllSteps (AuditDeadline.step cfg) (fun w label => uncut cfg w label)
      (.opened disk file) labels)
    (hrun : run (AuditDeadline.step cfg) (.opened disk file) labels = some w) :
    Sound cfg disk w :=
  invariant_of_allSteps (fun _ _ _ h => h.step) (Sound.opened hdisk hend) huncut hrun

/-! ## The log -/

/-- The line that a caller has asked for. -/
def Writer.line (w : Writer) (i : Nat) : Option (List UInt8) :=
  w.desk.calls[i]?.map fun call => call.request.bytes

/-- What a run has added to the log are the lines of some callers, each once and in the
    order of submission, and every caller that was told `Ok` by the worker is among them. -/
structure Logged (initial : Disk) (w : Writer) (landed : List Nat) : Prop where
  order : landed.Sublist w.desk.lineup
  lines : w.desk.server.disk.lines = initial.lines ++ landed.filterMap w.line
  acknowledged : ∀ i, phaseAt w.desk.calls i = some (.replied (.ok ())) → i ∈ landed

theorem exists_logged (h : Sound cfg initial w) : ∃ landed, Logged initial w landed := by
  obtain ⟨written, hwritten, hacked, hlines⟩ := AuditWorker.durable_of_inv h.account
  obtain ⟨landed, hsub, hmap, hmem⟩ := exists_sublist_of_map hwritten hacked
  refine ⟨landed.map Entry.ticket, ?_, ?_, ?_⟩
  · exact (hsub.map Entry.ticket).trans (List.sublist_append_left _ _)
  · have hline : ∀ entry ∈ landed, w.line entry.ticket = some entry.request.bytes := by
      intro entry hentry
      obtain ⟨call, hcall, hrequest⟩ := h.consistent.request entry (hsub.subset hentry)
      rw [Writer.line, hcall, Option.map_some, hrequest]
    have hall : landed.filterMap (fun entry => w.line entry.ticket) =
        landed.map fun entry => entry.request.bytes := by
      rw [← List.filterMap_eq_map]
      exact List.filterMap_congr hline
    rw [List.filterMap_map]
    refine hlines.trans ?_
    rw [← hmap, List.map_map]
    exact congrArg (initial.lines ++ ·) hall.symm
  · intro i hphase
    obtain ⟨entry, hentry, rfl, hreply⟩ := h.consistent.exists_entry hphase
    exact List.mem_map_of_mem (hmem entry hentry (by rw [acknowledged, hreply]))

/-- A step leaves the order of submission as it is, and may add to it. -/
theorem lineup_prefix_of_step {label : Label} (hstep : step cfg w label = some w') :
    w.desk.lineup <+: w'.desk.lineup := by
  rcases label with label | _
  · obtain ⟨desk, hdesk, rfl⟩ := Option.map_eq_some_iff.mp hstep
    exact lineup_prefix_of_moves (moves_of_step hdesk)
  · cases hstep
    exact List.prefix_refl _

theorem lineup_prefix_of_run {labels : List Label} (hrun : run (step cfg) w labels = some w') :
    w.desk.lineup <+: w'.desk.lineup := by
  have hpres : ∀ v label v', w.desk.lineup <+: v.desk.lineup → step cfg v label = some v' →
      w.desk.lineup <+: v'.desk.lineup :=
    fun _ _ _ h hstep => h.trans (lineup_prefix_of_step hstep)
  exact invariant_of_run hpres (List.prefix_refl _) hrun

/-- `write_record` told its caller `Ok`. -/
def toldOk (cfg : Config) (w : Writer) (i : Nat) : Bool :=
  (phaseAt w.desk.calls i).any fun phase =>
    match writeRecord cfg phase with
    | some (.ok _) => true
    | some (.error _) | none => false

theorem toldOk_iff {i : Nat} : toldOk cfg w i = true ↔
    phaseAt w.desk.calls i = some (.replied (.ok ())) ∨
      cfg.failOpen = true ∧ (phaseAt w.desk.calls i).any (hasFailed cfg) = true := by
  rcases hphase : phaseAt w.desk.calls i with _ | (_ | _ | (e | _) | _ | _) <;>
    cases hopen : cfg.failOpen <;>
    simp [toldOk, hphase, writeRecord, requestResult, hasFailed, hopen]

/-- The callers that were told `Ok` and have no line. -/
def silentLosses (cfg : Config) (w : Writer) (landed : List Nat) : List Nat :=
  (List.range w.desk.calls.length).filter fun i => toldOk cfg w i && !landed.contains i

theorem length_silentLosses_le (h : Sound cfg initial w) {landed : List Nat}
    (hlogged : Logged initial w landed) :
    (silentLosses cfg w landed).length ≤ w.suppressedFailures := by
  cases hopen : cfg.failOpen
  · have hnone : silentLosses cfg w landed = [] := by
      rw [silentLosses, List.filter_eq_nil_iff]
      intro i _
      rw [Bool.and_eq_true, toldOk_iff, hopen]
      rintro ⟨hok | ⟨hcontra, -⟩, hmissing⟩
      · simp [hlogged.acknowledged i hok] at hmissing
      · cases hcontra
    simp [hnone]
  · have hsub : (silentLosses cfg w landed).Sublist
        ((List.range w.desk.calls.length).filter fun i =>
          (phaseAt w.desk.calls i).any (hasFailed cfg)) := by
      apply List.monotone_filter_right
      intro i hi
      rw [Bool.and_eq_true, toldOk_iff] at hi
      obtain ⟨hok | ⟨-, hfailed⟩, hmissing⟩ := hi
      · simp [hlogged.acknowledged i hok] at hmissing
      · exact hfailed
    have hlength := hsub.length_le
    rw [length_tickets] at hlength
    exact hlength.trans (h.counted hopen)

end

/-! ## Every interleaving -/

def sampleConfig : Config where
  path := "audit.jsonl"
  rotateBytes := 4
  writeDeadlineSeconds := 15
  failOpen := true

/-- The first caller gives up before the worker comes to its request, which lands anyway; the
    flush of the second request fails, and its line comes to the file with the third. -/
def sampleRun : List Label :=
  [.io (.enter (AuditWorker.fillRequest 2)), .io (.submit 0),
   .io (.enter (AuditWorker.fillRequest 3)), .io (.giveUp 0), .io (.submit 1),
   .io (.serve (AuditWorker.osWith [])), .io (.serve (AuditWorker.osWith [.fail])),
   .io (.receive 1), .io (.enter (AuditWorker.fillRequest 1)), .io (.submit 2),
   .io (.serve (AuditWorker.osWith [])), .io (.receive 2)]

/-- A step of a caller that is there already. -/
def Label.isCaller : Label → Bool
  | .io label => DeadlineQueue.isCaller label
  | .noteAuthWriteLost => false

theorem consistent_of_run {cfg : Config} {worker : Worker} {count : Nat} {labels : List Label}
    {w : Writer} (hrun : run (step cfg) ⟨.opened worker, count⟩ labels = some w) :
    Consistent w.desk := by
  have hpres : ∀ v label v', Consistent v.desk → step cfg v label = some v' →
      Consistent v'.desk := by
    rintro v (label | _) v' h hstep
    · obtain ⟨desk, hdesk, rfl⟩ := Option.map_eq_some_iff.mp hstep
      exact h.moves (moves_of_step hdesk)
    · cases hstep
      exact h
  exact invariant_of_run hpres (Consistent.opened worker) hrun

/-- **A stuck worker holds nobody up.**  From every state that a run reaches, with a
    deadline, every call comes to its end by steps of the callers alone, in whatever order
    they are taken; and the channel holds at most one request more than callers gave up. -/
theorem callers_end_without_worker (cfg : Config) (hdeadline : 0 < cfg.writeDeadlineSeconds)
    (disk : Disk) (file : Nat) (labels : List Label) (w : Writer)
    (hrun : run (step cfg) (.opened disk file) labels = some w) :
    Inevitable (step cfg) (fun _ label => label.isCaller = true) (fun w => allEnded w.desk) w ∧
      w.desk.queue.length ≤ 1 + total (fun phase => phase.isGaveUp.toNat) w.desk.calls := by
  have hconsistent := consistent_of_run hrun
  refine ⟨?_, hconsistent.length_queue_le⟩
  have hbounded : cfg.isBounded = true := decide_eq_true hdeadline
  have hpres : ∀ v label v', Consistent v.desk → Label.isCaller label = true →
      step cfg v label = some v' → Consistent v'.desk := by
    rintro v (label | _) v' h hcaller hstep
    · obtain ⟨desk, hdesk, rfl⟩ := Option.map_eq_some_iff.mp hstep
      exact h.moves (moves_of_step hdesk)
    · cases hcaller
  have hless : ∀ v label v', Consistent v.desk → Label.isCaller label = true →
      step cfg v label = some v' →
        total Phase.weight v'.desk.calls < total Phase.weight v.desk.calls := by
    rintro v (label | _) v' h hcaller hstep
    · obtain ⟨desk, hdesk, rfl⟩ := Option.map_eq_some_iff.mp hstep
      exact h.weight_lt hcaller (moves_of_step hdesk)
    · cases hcaller
  refine inevitable_of_guarded_measure (fun v : Writer => total Phase.weight v.desk.calls)
    hpres hless ?_ hconsistent
  intro v h hleft
  obtain ⟨label, desk, hcaller, hdesk⟩ : ∃ label desk, DeadlineQueue.isCaller label = true ∧
      ioStep cfg v.desk label = some desk :=
    h.exists_caller_step hbounded hleft
  exact ⟨.io label, _, hcaller, by rw [step, hdesk, Option.map_some]⟩

/-- Nobody serves, and the first caller has given up. -/
theorem callers_end_without_worker_sample :
    ∃ w, run (step sampleConfig) (.opened AuditWorker.emptyDisk 0)
        (sampleRun.take 5) = some w ∧ w.desk.queue = [0, 1] ∧
      Inevitable (step sampleConfig) (fun _ label => label.isCaller = true)
        (fun w => allEnded w.desk) w ∧
      w.desk.queue.length ≤ 1 + total (fun phase => phase.isGaveUp.toNat) w.desk.calls := by
  have hrun : (run (step sampleConfig) (.opened AuditWorker.emptyDisk 0) (sampleRun.take 5)).map
      (fun w => w.desk.queue) = some [0, 1] := by
    decide +kernel
  obtain ⟨w, hw, hqueue⟩ := Option.map_eq_some_iff.mp hrun
  exact ⟨w, hw, hqueue, callers_end_without_worker sampleConfig (by decide) AuditWorker.emptyDisk 0
    (sampleRun.take 5) w hw⟩

end RustyImap.AuditDeadline
