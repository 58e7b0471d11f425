import RustyImap.ServeLifecycle

/-!
# The end comes without stdin

A client may hold stdin open while it waits for an error, and `validate_inbound` reads
from it without a limit.  So once the two races of `serve_mcp` are over, nothing that is
left to do may wait for stdin (`shutdown_after_failure` aborts the inbound bridge), and
nothing may wait for more of rmcp than that it lets go of its end of the duplex.

The measure counts what the tasks and the main task have still to do.  A frame that a
writer waits for the lock with counts its bytes, the lock and the flush.
-/

namespace RustyImap.ServeLifecycle

open RustyImap.LabelledRuns
open RustyImap.AuditLog (Bytes utf8)
open RustyImap.InboundBridge (Codec synthesizePreInitErrorEnvelope)
open RustyImap.SharedOutput
open RustyImap.StdioBridges (Completion Later MovesOnly Sound Stdio Transition Writer)

/-! ## What the tasks have to do -/

/-- What is left of the frame of a writer. -/
def outstanding (s : Stdio) (w : Writer) : Nat :=
  match s.stdout.held? w with
  | some t => t.frame.length - t.written.length + 1
  | none => ((s.wanted w).map fun frame => frame.length + 2).getD 0

/-- What is left apart from the frame, without a further line of stdin. -/
def rank (s : Stdio) : Writer → Nat
  | .inbound =>
      match s.inbound with
      | .answering _ _ | .forwarding _ | .raising => 2
      | .reading | .closing => 1
      | .ended _ => 0
  | .outbound =>
      match s.outbound with
      | .reading | .passing _ => 1
      | .ended _ => 0
  | .preInit => 0

def effort (s : Stdio) (w : Writer) : Nat := rank s w + outstanding s w

def ioWork (s : Stdio) : Nat :=
  effort s .inbound + effort s .outbound + effort s .preInit + 4 * s.unread.length +
    s.isOpen.toNat

section

variable {codec : Codec} {s s' : Stdio} {w v : Writer} {completion : Completion}
variable {stdout : Output Writer UInt8}

@[simp] theorem rank_withStdout : rank { s with stdout := stdout } v = rank s v := by
  cases v <;> rfl

theorem rank_of_movesOnly (h : MovesOnly w s s') (hv : w ≠ v) : rank s' v = rank s v := by
  cases v with
  | inbound => simp only [rank, h.inbound hv]
  | outbound => simp only [rank, h.outbound hv]
  | preInit => rfl

theorem effort_of_movesOnly (h : MovesOnly w s s') (hstdout : s'.stdout = s.stdout)
    (hv : w ≠ v) : effort s' v = effort s v := by
  simp only [effort, outstanding, rank_of_movesOnly h hv, h.wanted hv, hstdout]

theorem effort_finish :
    effort (s.finish w completion) v = if w = v then 0 else effort s v := by
  have hrank : rank (s.finish w completion) v = if w = v then 0 else rank s v := by
    cases w <;> cases v <;> rfl
  rw [effort, hrank, outstanding, Stdio.stdout_finish, Output.held?_cut, Stdio.wanted_finish]
  split <;> rfl

theorem effort_acquire {frame : Bytes} (hwanted : s.wanted w = some frame)
    (h : s.stdout.acquire w frame = some stdout) :
    effort { s with stdout := stdout } w < effort s w ∧
      ∀ v, w ≠ v → effort { s with stdout := stdout } v = effort s v := by
  refine ⟨?_, ?_⟩
  · have hbefore := (Output.held?_of_acquire h w).1
    have hafter : stdout.held? w = some ⟨w, frame, []⟩ := by
      obtain ⟨-, rfl⟩ := Output.acquire_eq_some h
      simp [Output.held?]
    simp only [effort, outstanding, rank_withStdout, hbefore, hafter, hwanted]
    simp
  · intro v hv
    obtain ⟨hbefore, hafter⟩ := Output.held?_of_acquire h v
    rw [decide_eq_false hv, Option.isSome_eq_false_iff, Option.isNone_iff_eq_none] at hafter
    simp only [effort, outstanding, rank_withStdout, Stdio.wanted_withStdout, hbefore, hafter]

theorem effort_push {n : Nat} (h : s.stdout.push w n = some stdout) :
    effort { s with stdout := stdout } w < effort s w ∧
      ∀ v, w ≠ v → effort { s with stdout := stdout } v = effort s v := by
  obtain ⟨t, chunk, hcurrent, rfl, hchunk, hprefix, rfl⟩ := Output.push_eq_some h
  have hlength := hprefix.length_le
  rw [List.length_drop] at hlength
  have hpos := List.length_pos_iff.mpr hchunk
  refine ⟨?_, ?_⟩
  · have hbefore : s.stdout.held? t.owner = some t := Output.held?_eq_some.mpr ⟨hcurrent, rfl⟩
    have hafter : Output.held? { s.stdout with
        stream := s.stdout.stream ++ chunk
        current := some { t with written := t.written ++ chunk } } t.owner =
          some { t with written := t.written ++ chunk } := Output.held?_eq_some.mpr ⟨rfl, rfl⟩
    simp only [effort, outstanding, rank_withStdout, hbefore, hafter, List.length_append]
    omega
  · intro v hv
    have hbefore := Output.held?_eq_none_of_ne hcurrent hv
    have hafter : Output.held? { s.stdout with
        stream := s.stdout.stream ++ chunk
        current := some { t with written := t.written ++ chunk } } v = none :=
      Output.held?_eq_none_of_ne rfl hv
    simp only [effort, outstanding, rank_withStdout, Stdio.wanted_withStdout, hbefore, hafter]

theorem rank_flushed {frame : Bytes} (hwanted : s.wanted w = some frame) :
    rank (s.flushed w) w ≤ rank s w := by
  cases w with
  | inbound =>
      simp only [Stdio.wanted] at hwanted
      split at hwanted
      · rename_i line intercepts hphase
        cases intercepts <;> simp [rank, Stdio.flushed, hphase]
      · cases hwanted
  | outbound =>
      simp only [Stdio.wanted] at hwanted
      split at hwanted
      · rename_i hphase
        simp [rank, Stdio.flushed, hphase]
      · cases hwanted
  | preInit => exact Nat.le_refl _

theorem effort_flush {frame : Bytes} (hwanted : s.wanted w = some frame)
    (h : s.stdout.release w = some stdout) :
    effort (Stdio.flushed { s with stdout := stdout } w) w < effort s w ∧
      ∀ v, w ≠ v → effort (Stdio.flushed { s with stdout := stdout } w) v = effort s v := by
  have hle : rank (Stdio.flushed { s with stdout := stdout } w) w ≤ rank s w :=
    (rank_flushed (Stdio.wanted_withStdout.trans hwanted)).trans_eq rank_withStdout
  refine ⟨?_, ?_⟩
  · obtain ⟨t, hcurrent, howner, -, -⟩ := Output.release_eq_some h
    have hbefore : s.stdout.held? w = some t := Output.held?_eq_some.mpr ⟨hcurrent, howner⟩
    have hafter := (Output.held?_of_release h w).2
    simp only [effort, outstanding, Stdio.stdout_flushed, Stdio.wanted_flushed, hbefore, hafter,
      if_true, Option.map_none, Option.getD_none]
    omega
  · intro v hv
    obtain ⟨hbefore, hafter⟩ := Output.held?_of_release h v
    rw [decide_eq_false hv, Option.isSome_eq_false_iff, Option.isNone_iff_eq_none] at hbefore
    simp only [effort, outstanding, rank_of_movesOnly (Stdio.movesOnly_flushed stdout) hv,
      Stdio.stdout_flushed, Stdio.wanted_flushed, Stdio.wanted_withStdout, hbefore, hafter,
      if_neg hv]

/-- A step that is neither a word from stdin nor more of rmcp's. -/
def isOwn : StdioBridges.Label → Bool
  | .readLine _ | .readEof | .rmcpWrites _ => false
  | _ => true

/-- The work with the effort of one writer taken apart. -/
theorem ioWork_lt {t : Stdio} (w : Writer) (hless : effort t w < effort s w)
    (hothers : ∀ v, w ≠ v → effort t v = effort s v) (hunread : t.unread = s.unread)
    (hopen : t.isOpen = s.isOpen) : ioWork t < ioWork s := by
  have hin := hothers .inbound
  have hout := hothers .outbound
  have hpre := hothers .preInit
  unfold ioWork
  rw [hunread, hopen]
  cases w with
  | inbound =>
      rw [hout nofun, hpre nofun]
      omega
  | outbound =>
      rw [hin nofun, hpre nofun]
      omega
  | preInit =>
      rw [hin nofun, hout nofun]
      omega

theorem ioWork_finish (hpos : 0 < effort s w) : ioWork (s.finish w completion) < ioWork s := by
  refine ioWork_lt w ?_ ?_ (by cases w <;> rfl) (by cases w <;> rfl)
  · rwa [effort_finish, if_pos rfl]
  · intro v hv
    rw [effort_finish, if_neg hv]

/-- **Every step of their own brings the tasks closer to their ends.** -/
theorem ioWork_step {label : StdioBridges.Label} {t : Stdio} (h : Sound codec s)
    (hown : isOwn label = true) (hstep : StdioBridges.step codec s label = some t) :
    ioWork t < ioWork s := by
  cases StdioBridges.transition_of_step hstep with
  | readLine buf hreading hbuf => cases hown
  | readEof hreading => cases hown
  | forward buf hforwarding =>
      have hfree := h.locked.held?_eq_none (w := .inbound) (by simp [Stdio.wanted, hforwarding])
      refine ioWork_lt .inbound ?_ (fun v => effort_of_movesOnly ?_ rfl) rfl rfl
      · simp [effort, rank, outstanding, hforwarding, hfree, Stdio.wanted]
      · exact ⟨fun h => absurd rfl h, fun _ => rfl, fun _ => rfl⟩
  | raise hraising =>
      have hfree := h.locked.held?_eq_none (w := .inbound) (by simp [Stdio.wanted, hraising])
      refine ioWork_lt .inbound ?_ (fun v => effort_of_movesOnly ?_ rfl) rfl rfl
      · simp [effort, rank, outstanding, hraising, hfree, Stdio.wanted]
      · exact ⟨fun h => absurd rfl h, fun _ => rfl, fun _ => rfl⟩
  | close hclosing => exact ioWork_finish (by simp [effort, rank, hclosing])
  | cancel haborted hawaiting =>
      refine ioWork_finish ?_
      cases hphase : s.inbound <;> simp [Stdio.isAwaiting, effort, rank, hphase] at hawaiting ⊢
  | takeEnd hreading hframe => exact ioWork_finish (by simp [effort, rank, hreading])
  | take frame hreading hframe hnonempty =>
      obtain ⟨rest, hunread, -⟩ := StdioBridges.nextFrame_eq_some hframe
      have hfree := h.locked.held?_eq_none (w := .outbound) (by simp [Stdio.wanted, hreading])
      have hpos := List.length_pos_iff.mpr hnonempty
      have hin : effort { s with
          outbound := .passing frame
          taken := s.taken ++ [frame]
          unread := s.unread.drop frame.length } .inbound = effort s .inbound := rfl
      have hpre : effort { s with
          outbound := .passing frame
          taken := s.taken ++ [frame]
          unread := s.unread.drop frame.length } .preInit = effort s .preInit := rfl
      have hbefore : effort s .outbound = 1 := by
        simp [effort, rank, outstanding, hreading, hfree, Stdio.wanted]
      have hafter : effort { s with
          outbound := .passing frame
          taken := s.taken ++ [frame]
          unread := s.unread.drop frame.length } .outbound = frame.length + 3 := by
        simp [effort, rank, outstanding, hfree, Stdio.wanted]
        omega
      have hlength : s.unread.length = frame.length + rest.length := by
        rw [hunread, List.length_append]
      simp only [ioWork, hin, hpre, hbefore, hafter, List.length_drop]
      omega
  | acquire w frame stdout hwanted hacquire =>
      obtain ⟨hless, hothers⟩ := effort_acquire hwanted hacquire
      exact ioWork_lt w hless hothers rfl rfl
  | write w n stdout hpush =>
      obtain ⟨hless, hothers⟩ := effort_push hpush
      exact ioWork_lt w hless hothers rfl rfl
  | flush w stdout hrelease =>
      obtain ⟨frame, hframe⟩ : ∃ frame, s.wanted w = some frame := by
        obtain ⟨t, hcurrent, rfl, -, -⟩ := Output.release_eq_some hrelease
        exact ⟨t.frame, h.locked.holder t hcurrent⟩
      obtain ⟨hless, hothers⟩ := effort_flush hframe hrelease
      refine ioWork_lt w hless hothers ?_ ?_
      · unfold Stdio.flushed
        split
        · split <;> rfl
        · rfl
        · rfl
      · unfold Stdio.flushed
        split
        · split <;> rfl
        · rfl
        · rfl
  | fail w completion hcan hfailure =>
      refine ioWork_finish ?_
      cases w with
      | inbound =>
          cases hphase : s.inbound <;> simp [Stdio.canFail, effort, rank, hphase] at hcan ⊢
      | outbound =>
          cases hphase : s.outbound <;> simp [Stdio.canFail, effort, rank, hphase] at hcan ⊢
      | preInit =>
          cases hphase : s.preInit with
          | emitting line =>
              simp only [Stdio.canFail, hphase] at hcan
              obtain ⟨t, ht⟩ := Option.isSome_iff_exists.mp hcan
              simp [effort, outstanding, ht]
          | idle => simp [Stdio.canFail, hphase] at hcan
          | ended completion => simp [Stdio.canFail, hphase] at hcan
  | rmcpWrites bytes hopen hnone => cases hown
  | rmcpCloses hopen =>
      have hin : effort { s with isOpen := false } .inbound = effort s .inbound := rfl
      have hout : effort { s with isOpen := false } .outbound = effort s .outbound := rfl
      have hpre : effort { s with isOpen := false } .preInit = effort s .preInit := rfl
      simp only [ioWork, hin, hout, hpre, hopen]
      simp

/-! ## Nothing is stuck -/

variable (codec s) in
def CanMove : Prop := ∃ label t, isOwn label = true ∧ StdioBridges.step codec s label = some t

/-- The holder of the mutex goes on. -/
theorem canMove_of_current {t : Turn Writer UInt8} (hcurrent : s.stdout.current = some t) :
    CanMove codec s := by
  have hheld : s.stdout.held? t.owner = some t := Output.held?_eq_some.mpr ⟨hcurrent, rfl⟩
  by_cases hlength : t.frame.length ≤ t.written.length
  · refine ⟨.flush t.owner, ?_⟩
    simp [isOwn, StdioBridges.step, Output.release, hheld, hlength]
  · refine ⟨.write t.owner 1, ?_⟩
    simp only [isOwn, StdioBridges.step, Output.push, hheld, Option.bind_some]
    rw [if_neg]
    · exact ⟨_, trivial, rfl⟩
    · rw [← List.length_eq_zero_iff, List.length_take, List.length_drop]
      omega

/-- A writer with a frame goes on, or the one that it waits for. -/
theorem canMove_of_wanted {frame : Bytes} (hwanted : s.wanted w = some frame) :
    CanMove codec s := by
  cases hcurrent : s.stdout.current with
  | some t => exact canMove_of_current hcurrent
  | none =>
      refine ⟨.acquire w, ?_⟩
      simp [isOwn, StdioBridges.step, hwanted, Output.acquire, hcurrent]

/-- The inbound task is about to end, or has. -/
def Leaving (s : Stdio) : Prop := s.inbound = .closing ∨ (s.completion? .inbound).isSome = true

theorem leaving_step (h : Sound codec s) {label : StdioBridges.Label} {t : Stdio}
    (hleaving : Leaving s) (hstep : StdioBridges.step codec s label = some t) : Leaving t := by
  have hlater := StdioBridges.later_step h hstep
  rcases hleaving with hclosing | hsome
  · cases StdioBridges.transition_of_step hstep with
    | readLine buf hreading hbuf => simp [hclosing] at hreading
    | readEof hreading => simp [hclosing] at hreading
    | forward buf hforwarding => simp [hclosing] at hforwarding
    | raise hraising => simp [hclosing] at hraising
    | close hclosing' => exact .inr rfl
    | cancel haborted hawaiting => simp [Stdio.isAwaiting, hclosing] at hawaiting
    | flush w stdout hrelease =>
        cases w with
        | inbound =>
            obtain ⟨t, hcurrent, howner, -, -⟩ := Output.release_eq_some hrelease
            have hholder := h.locked.holder t hcurrent
            simp [howner, Stdio.wanted, hclosing] at hholder
        | outbound => exact .inl hclosing
        | preInit => exact .inl hclosing
    | fail w completion hcan hfailure =>
        cases w with
        | inbound => simp [Stdio.canFail, hclosing] at hcan
        | outbound => exact .inl hclosing
        | preInit => exact .inl hclosing
    | _ => exact .inl hclosing
  · obtain ⟨completion, hcompletion⟩ := Option.isSome_iff_exists.mp hsome
    exact .inr (by rw [hlater.completion _ _ hcompletion]; rfl)

/-- An inbound task that is aborted or leaving ends without stdin. -/
theorem canMove_of_leaving (hends : s.aborted = true ∨ Leaving s)
    (hnone : s.completion? .inbound = none) : CanMove codec s := by
  cases hawaiting : s.isAwaiting with
  | true =>
      have haborted : s.aborted = true := by
        rcases hends with haborted | hclosing | hsome
        · exact haborted
        · simp [Stdio.isAwaiting, hclosing] at hawaiting
        · simp [hnone] at hsome
      exact ⟨.cancel, s.finish .inbound .cancelled, rfl,
        by simp [StdioBridges.step, haborted, hawaiting]⟩
  | false =>
      cases hphase : s.inbound with
      | raising =>
          refine ⟨.raise, ?_⟩
          simp [isOwn, StdioBridges.step, hphase]
      | closing =>
          refine ⟨.close, ?_⟩
          simp [isOwn, StdioBridges.step, hphase]
      | ended completion => simp [Stdio.completion?, hphase] at hnone
      | reading => simp [Stdio.isAwaiting, hphase] at hawaiting
      | answering line intercepts => simp [Stdio.isAwaiting, hphase] at hawaiting
      | forwarding buf => simp [Stdio.isAwaiting, hphase] at hawaiting

/-- The outbound task ends once rmcp has let go of the duplex. -/
theorem canMove_of_outbound (hnone : s.completion? .outbound = none) : CanMove codec s := by
  cases hphase : s.outbound with
  | ended completion => simp [Stdio.completion?, hphase] at hnone
  | passing frame =>
      have hwanted : s.wanted .outbound = some frame := by simp [Stdio.wanted, hphase]
      exact canMove_of_wanted hwanted
  | reading =>
      cases hopen : s.isOpen with
      | true =>
          refine ⟨.rmcpCloses, ?_⟩
          simp [isOwn, StdioBridges.step, hopen]
      | false =>
          refine ⟨.take, ?_⟩
          cases hframe : StdioBridges.nextFrame s.unread s.isOpen with
          | none =>
              rw [hopen] at hframe
              unfold StdioBridges.nextFrame at hframe
              split at hframe <;> cases hframe
          | some frame => cases frame <;> simp [isOwn, StdioBridges.step, hphase, hframe]

/-! ## The way out -/

namespace Arm

/-- The frame that the arm has to write itself. -/
def envelopeWork (codec : Codec) : Arm → Nat
  | .rmcp (.expectedInitializeRequest (some msg)) =>
      ((synthesizePreInitErrorEnvelope codec msg).map fun line => (utf8 line).length + 2).getD 0
  | _ => 0

end Arm

def Phase.work (codec : Codec) : Phase → Nat
  | .draining arm => 5 + arm.envelopeWork codec
  | .emitting _ => 4
  | .awaitingInbound _ => 3
  | .awaitingOutbound _ _ => 2
  | .joining _ => 1
  | _ => 0

/-- Both races are over and the way out is chosen. -/
def Phase.isClosing : Phase → Bool
  | .draining _ | .emitting _ | .awaitingInbound _ | .awaitingOutbound _ _ | .joining _
  | .ended _ => true
  | _ => false

/-- What follows in the phase is up to a bridge. -/
def Phase.needsBridges : Phase → Bool
  | .draining (.served (.ok ())) | .emitting _ | .awaitingInbound _ => true
  | _ => false

def Process.work (codec : Codec) (p : Process) : Nat := p.main.work codec + ioWork p.io

def Process.isEnded (p : Process) : Bool :=
  match p.main with
  | .ended _ => true
  | _ => false

def Label.isOwn : Label → Bool
  | .io label => ServeLifecycle.isOwn label
  | _ => true

/-- rmcp ends a session well only after it has seen its input end. -/
def SawEof (p : Process) (label : Label) : Prop := label = .serviceEnds true → Leaving p.io

/-- On the way out the inbound bridge ends without stdin. -/
structure WayOut (codec : Codec) (p : Process) : Prop where
  inv : Inv codec p
  draining : p.main = .draining (.served (.ok ())) → Leaving p.io
  emitting : ∀ arm, p.main = .emitting arm → p.io.preInit ≠ .idle
  awaiting : ∀ arm, p.main = .awaitingInbound arm → p.io.aborted = true ∨ Leaving p.io

variable {p p' : Process} {label : Label}

theorem shutDown_cases (p : Process) (arm : Arm) :
    (arm = .served (.ok ()) ∧ p.shutDown arm = { p with main := .awaitingInbound arm }) ∨
      (arm ≠ .served (.ok ()) ∧ p.shutDown arm =
        { p with io := { p.io with aborted := true }, main := .awaitingInbound arm }) := by
  cases arm with
  | served outcome =>
      cases outcome with
      | ok => exact .inl ⟨rfl, rfl⟩
      | error failure => exact .inr ⟨nofun, rfl⟩
  | _ => exact .inr ⟨nofun, rfl⟩

theorem wayOut_shutDown {arm : Arm} (hinv : Inv codec (p.shutDown arm))
    (hleaving : arm = .served (.ok ()) → Leaving p.io) : WayOut codec (p.shutDown arm) := by
  rcases shutDown_cases p arm with ⟨heq, hshut⟩ | ⟨-, hshut⟩
  · rw [hshut] at hinv ⊢
    exact ⟨hinv, nofun, nofun, fun _ _ => .inr (hleaving heq)⟩
  · rw [hshut] at hinv ⊢
    exact ⟨hinv, nofun, nofun, fun _ _ => .inl rfl⟩

/-- In other phases the bridges do not matter for the way out. -/
theorem wayOut_of_phase (hinv : Inv codec p) (hphase : p.main.needsBridges = false) :
    WayOut codec p := by
  refine ⟨hinv, ?_, ?_, ?_⟩
  · intro hmain
    simp [Phase.needsBridges, hmain] at hphase
  · intro arm hmain
    simp [Phase.needsBridges, hmain] at hphase
  · intro arm hmain
    simp [Phase.needsBridges, hmain] at hphase

theorem wayOut_of_draining (hinv : Inv codec p) (hmain : p.main = .draining (.served (.ok ())))
    (hleaving : Leaving p.io) : WayOut codec p := by
  refine ⟨hinv, fun _ => hleaving, ?_, ?_⟩
  · intro arm heq
    rw [hmain] at heq
    cases heq
  · intro arm heq
    rw [hmain] at heq
    cases heq

theorem wayOut_of_emitting {arm : Arm} {line : Bytes} (hinv : Inv codec p)
    (hmain : p.main = .emitting arm) (hemitting : p.io.preInit = .emitting line) :
    WayOut codec p := by
  refine ⟨hinv, ?_, ?_, ?_⟩
  · intro heq
    rw [hmain] at heq
    cases heq
  · intro _ _ hidle
    rw [hemitting] at hidle
    cases hidle
  · intro _ heq
    rw [hmain] at heq
    cases heq

theorem main_watchReturns {ok : Bool} (h : p.watchReturns ok = some p') :
    p'.main = .resolved (.bridge ok) ∨ p'.main = .serviceAlone ∨
      p'.main = .draining (.served (.error .bridge)) := by
  simp only [Process.watchReturns] at h
  split at h
  · cases h
    exact .inl rfl
  · split at h
    · cases h
      exact .inr (.inl rfl)
    · cases h
      exact .inr (.inr rfl)
  · cases h

theorem wayOut_watchReturns {ok : Bool} (hinv : Inv codec p') (h : p.watchReturns ok = some p') :
    WayOut codec p' := by
  refine wayOut_of_phase hinv ?_
  rcases main_watchReturns h with heq | heq | heq
  · rw [heq]
    rfl
  · rw [heq]
    rfl
  · rw [heq]
    rfl

theorem main_of_isWatching (h : p.isWatching = true) :
    p.main = .initRace ∨ p.main = .serviceRace := by
  simp only [Process.isWatching] at h
  split at h
  · rename_i heq
    exact .inl heq
  · rename_i heq
    exact .inr heq
  · cases h

theorem wayOut_step (h : WayOut codec p) (hsaw : SawEof p label)
    (hstep : step codec p label = some p') : WayOut codec p' := by
  have hinv := inv_step h.inv hstep
  cases label with
  | io label =>
      obtain ⟨io, hio, rfl⟩ := Option.map_eq_some_iff.mp hstep
      refine ⟨hinv, ?_, ?_, ?_⟩
      · exact fun hmain => leaving_step h.inv.sound (h.draining hmain) hio
      · intro arm hmain hidle
        exact h.emitting arm hmain ((StdioBridges.later_step h.inv.sound hio).idle.mp hidle)
      · intro arm hmain
        rcases h.awaiting arm hmain with haborted | hleaving
        · exact .inl ((StdioBridges.aborted_step hio).trans haborted)
        · exact .inr (leaving_step h.inv.sound hleaving hio)
  | initResolves error =>
      simp only [step] at hstep
      split at hstep
      · cases hstep
        exact wayOut_of_phase hinv rfl
      · cases hstep
        exact wayOut_of_phase hinv rfl
      · cases hstep
  | serviceEnds ok =>
      simp only [step] at hstep
      have hp : p' = { p with
          rmcp := .ended ok
          main := .draining (.served (if ok then .ok () else .error .mcpServer)) } := by
        split at hstep
        · exact (Option.some.inj hstep).symm
        · exact (Option.some.inj hstep).symm
        · cases hstep
      rw [hp] at hinv ⊢
      cases ok with
      | true => exact wayOut_of_draining hinv rfl (hsaw rfl)
      | false => exact wayOut_of_phase hinv rfl
  | watch b =>
      simp only [step, Process.watch] at hstep
      split at hstep
      · rename_i hwatching
        rw [Bool.and_eq_true] at hwatching
        obtain ⟨completion, -, hstep⟩ := Option.bind_eq_some_iff.mp hstep
        have hmain : (p.consume b).main = p.main := by cases b <;> rfl
        split at hstep
        · split at hstep
          · exact wayOut_watchReturns hinv hstep
          · cases hstep
            refine wayOut_of_phase hinv ?_
            rcases main_of_isWatching hwatching.1 with heq | heq
            · rw [hmain, heq]
              rfl
            · rw [hmain, heq]
              rfl
        · exact wayOut_watchReturns hinv hstep
      · cases hstep
  | watchElse =>
      simp only [step] at hstep
      split at hstep
      · exact wayOut_watchReturns hinv hstep
      · cases hstep
  | loadFlag =>
      simp only [step] at hstep
      split at hstep
      · split at hstep
        · cases hstep
          exact wayOut_of_phase hinv rfl
        · split at hstep <;> (cases hstep; exact wayOut_of_phase hinv rfl)
      · cases hstep
  | drained undrained =>
      simp only [step] at hstep
      split at hstep
      · rename_i arm hmain
        cases hstep
        unfold Process.afterDrain at hinv ⊢
        split
        · rename_i msg
          split
          · rename_i line hline
            simp only [hline] at hinv
            exact wayOut_of_emitting hinv rfl rfl
          · rename_i hnone
            simp only [hnone] at hinv
            refine wayOut_shutDown hinv ?_
            intro heq
            cases heq
        · rename_i hother
          refine wayOut_shutDown ?_ ?_
          · split at hinv
            · rename_i msg
              exact absurd rfl (hother msg)
            · exact hinv
          · rintro rfl
            exact h.draining hmain
      · cases hstep
  | emitted =>
      simp only [step] at hstep
      split at hstep
      · rename_i arm completion hmain hcompletion
        split at hstep
        · cases hstep
          refine wayOut_shutDown hinv ?_
          rintro rfl
          have hknown := h.inv.known
          rw [hmain] at hknown
          obtain ⟨-, msg, hmsg⟩ := hknown
          cases hmsg
        · cases hstep
          exact wayOut_of_phase hinv rfl
      · cases hstep
  | await b =>
      simp only [step] at hstep
      split at hstep
      · obtain ⟨⟨ok, consumed⟩, -, rfl⟩ := Option.map_eq_some_iff.mp hstep
        exact wayOut_of_phase hinv rfl
      · rename_i arm inboundOk hmain
        obtain ⟨⟨ok, consumed⟩, -, rfl⟩ := Option.map_eq_some_iff.mp hstep
        cases arm <;> exact wayOut_of_phase hinv rfl
      · cases hstep
  | joined aborted =>
      simp only [step] at hstep
      split at hstep
      · cases hstep
        exact wayOut_of_phase hinv rfl
      · cases hstep

/-- What `take_or_await` takes leaves the tasks alone. -/
theorem io_takeOrAwait {b : Bridge} {ok : Bool} (h : p.takeOrAwait b = some (ok, p')) :
    p'.io = p.io := by
  rcases takeOrAwait_eq_some h with ⟨-, -, rfl⟩ | ⟨rfl, -⟩
  · rfl
  · cases b <;> rfl

theorem ioWork_emitting (h : Sound codec s) (hidle : s.preInit = .idle) (line : Bytes) :
    ioWork { s with preInit := .emitting line } = ioWork s + (line.length + 2) := by
  have hfree := h.locked.held?_eq_none (w := .preInit) (by simp [Stdio.wanted, hidle])
  have hin : effort { s with preInit := .emitting line } .inbound = effort s .inbound := rfl
  have hout : effort { s with preInit := .emitting line } .outbound = effort s .outbound := rfl
  have hbefore : effort s .preInit = 0 := by
    simp [effort, rank, outstanding, hfree, Stdio.wanted, hidle]
  have hafter : effort { s with preInit := .emitting line } .preInit = line.length + 2 := by
    simp [effort, rank, outstanding, hfree, Stdio.wanted]
  simp only [ioWork, hin, hout, hbefore, hafter]
  omega

theorem work_shutDown {phase : Phase} (hmain : p.main = phase) (hwork : 3 < phase.work codec)
    (arm : Arm) :
    (p.shutDown arm).main.isClosing = true ∧ (p.shutDown arm).work codec < p.work codec := by
  have hshut : (p.shutDown arm).main = .awaitingInbound arm ∧
      ioWork (p.shutDown arm).io = ioWork p.io := by
    rcases shutDown_cases p arm with ⟨-, heq⟩ | ⟨-, heq⟩
    · rw [heq]
      exact ⟨rfl, rfl⟩
    · rw [heq]
      exact ⟨rfl, rfl⟩
  rw [Process.work, Process.work, hshut.1, hshut.2, hmain]
  exact ⟨rfl, Nat.add_lt_add_right hwork _⟩

/-- **On the way out every step of their own brings the process closer to its end.** -/
theorem work_step (h : WayOut codec p) (hclosing : p.main.isClosing = true)
    (hown : label.isOwn = true) (hstep : step codec p label = some p') :
    p'.main.isClosing = true ∧ p'.work codec < p.work codec := by
  have hnot : ∀ phase, p.main = phase → phase.isClosing = true := fun _ heq => heq ▸ hclosing
  cases label with
  | io label =>
      obtain ⟨io, hio, rfl⟩ := Option.map_eq_some_iff.mp hstep
      refine ⟨hclosing, ?_⟩
      exact Nat.add_lt_add_left (ioWork_step h.inv.sound hown hio) _
  | initResolves error =>
      simp only [step] at hstep
      split at hstep
      · rename_i hmain _
        cases hnot _ hmain
      · rename_i hmain _
        cases hnot _ hmain
      · cases hstep
  | serviceEnds ok =>
      simp only [step] at hstep
      split at hstep
      · rename_i hmain _
        cases hnot _ hmain
      · rename_i hmain _
        cases hnot _ hmain
      · cases hstep
  | watch b =>
      simp only [step, Process.watch] at hstep
      split at hstep
      · rename_i hwatching
        rw [Bool.and_eq_true] at hwatching
        rcases main_of_isWatching hwatching.1 with hmain | hmain
        · cases hnot _ hmain
        · cases hnot _ hmain
      · cases hstep
  | watchElse =>
      simp only [step] at hstep
      split at hstep
      · simp only [Process.watchReturns] at hstep
        split at hstep
        · rename_i hmain
          cases hnot _ hmain
        · rename_i hmain
          cases hnot _ hmain
        · cases hstep
      · cases hstep
  | loadFlag =>
      simp only [step] at hstep
      split at hstep
      · rename_i result hmain
        cases hnot _ hmain
      · cases hstep
  | drained undrained =>
      simp only [step] at hstep
      split at hstep
      · rename_i arm hmain
        cases hstep
        have hidle : p.io.preInit = .idle := h.inv.idle (by rw [hmain]; rfl)
        unfold Process.afterDrain
        split
        · rename_i msg
          split
          · rename_i line hline
            refine ⟨rfl, ?_⟩
            have hwork := ioWork_emitting h.inv.sound hidle (utf8 line)
            simp only [Process.work, hwork, hmain, Phase.work, Arm.envelopeWork, hline,
              Option.map_some, Option.getD_some]
            omega
          · exact work_shutDown (p := { p with undrained := undrained }) hmain
              (Nat.lt_of_lt_of_le (by decide) (Nat.le_add_right 5 _)) _
        · exact work_shutDown (p := { p with undrained := undrained }) hmain
            (Nat.lt_of_lt_of_le (by decide) (Nat.le_add_right 5 _)) _
      · cases hstep
  | emitted =>
      simp only [step] at hstep
      split at hstep
      · rename_i arm completion hmain hcompletion
        split at hstep
        · cases hstep
          exact work_shutDown hmain (Nat.lt_succ_self 3) arm
        · cases hstep
          refine ⟨rfl, ?_⟩
          simp only [Process.work, Process.finish, hmain, Phase.work]
          omega
      · cases hstep
  | await b =>
      simp only [step] at hstep
      split at hstep
      · rename_i arm hmain
        obtain ⟨⟨ok, consumed⟩, hawait, rfl⟩ := Option.map_eq_some_iff.mp hstep
        refine ⟨rfl, ?_⟩
        simp only [Process.work, io_takeOrAwait hawait, hmain, Phase.work]
        omega
      · rename_i arm inboundOk hmain
        obtain ⟨⟨ok, consumed⟩, hawait, rfl⟩ := Option.map_eq_some_iff.mp hstep
        have hio := io_takeOrAwait hawait
        cases arm with
        | served outcome =>
            refine ⟨rfl, ?_⟩
            simp only [Process.work, hio, hmain, Phase.work]
            omega
        | _ =>
            refine ⟨rfl, ?_⟩
            simp only [Process.work, Process.finish, hio, hmain, Phase.work]
            omega
      · cases hstep
  | joined aborted =>
      simp only [step] at hstep
      split at hstep
      · rename_i result hmain
        cases hstep
        refine ⟨rfl, ?_⟩
        simp only [Process.work, Process.finish, hmain, Phase.work]
        omega
      · cases hstep

theorem exists_io_step (h : CanMove codec p.io) :
    ∃ label p', Label.isOwn label = true ∧ step codec p label = some p' := by
  obtain ⟨label, io, hown, hio⟩ := h
  exact ⟨.io label, { p with io := io }, hown, by simp [step, hio]⟩

theorem exists_takeOrAwait {b : Bridge} (h : p.isConsumed b = true ∨
    ∃ completion, p.io.completion? b.writer = some completion) :
    ∃ ok p', p.takeOrAwait b = some (ok, p') := by
  unfold Process.takeOrAwait
  split
  · exact ⟨_, _, rfl⟩
  · rename_i hnot
    rcases h with hconsumed | ⟨completion, hcompletion⟩
    · exact absurd hconsumed hnot
    · rw [hcompletion]
      exact ⟨_, _, rfl⟩

/-- **The way out is never stuck**, whatever the client does with stdin. -/
theorem exists_step_of_wayOut (h : WayOut codec p) (hclosing : p.main.isClosing = true)
    (hnot : p.isEnded = false) :
    ∃ label p', Label.isOwn label = true ∧ step codec p label = some p' := by
  cases hmain : p.main with
  | draining arm => exact ⟨.drained 0, _, rfl, by simp only [step, hmain]; rfl⟩
  | emitting arm =>
      cases hcompletion : p.io.completion? .preInit with
      | some completion =>
          refine ⟨.emitted, ?_⟩
          simp only [Label.isOwn, step, hmain, hcompletion]
          split
          · exact ⟨_, trivial, rfl⟩
          · exact ⟨_, trivial, rfl⟩
      | none =>
          have hbusy := h.emitting arm hmain
          cases hphase : p.io.preInit with
          | idle => exact absurd hphase hbusy
          | ended completion => simp [Stdio.completion?, hphase] at hcompletion
          | emitting line =>
              have hwanted : p.io.wanted .preInit = some line := by simp [Stdio.wanted, hphase]
              exact exists_io_step (canMove_of_wanted hwanted)
  | awaitingInbound arm =>
      cases hcompletion : p.io.completion? .inbound with
      | none => exact exists_io_step (canMove_of_leaving (h.awaiting arm hmain) hcompletion)
      | some completion =>
          have hready := exists_takeOrAwait (b := .inbound) (.inr ⟨completion, hcompletion⟩)
          obtain ⟨ok, consumed, hawait⟩ := hready
          refine ⟨.await .inbound, ?_⟩
          simp [Label.isOwn, step, hmain, hawait]
  | awaitingOutbound arm inboundOk =>
      cases hcompletion : p.io.completion? .outbound with
      | none => exact exists_io_step (canMove_of_outbound hcompletion)
      | some completion =>
          have hready := exists_takeOrAwait (b := .outbound) (.inr ⟨completion, hcompletion⟩)
          obtain ⟨ok, consumed, hawait⟩ := hready
          refine ⟨.await .outbound, ?_⟩
          cases arm <;> simp [Label.isOwn, step, hmain, hawait]
  | joining result =>
      refine ⟨.joined false, ?_⟩
      simp [Label.isOwn, step, hmain]
  | ended outcome => simp [Process.isEnded, hmain] at hnot
  | _ => simp [Phase.isClosing, hmain] at hclosing

end

/-- **Nobody has to close stdin for the server to end.**  Where rmcp ends a session well
    only once its input has ended, every state in which the way out is chosen comes to
    `process_end` by steps of the bridges and of the main task alone, in whatever order
    they are taken: none of them waits for stdin, nor for more from rmcp than that it
    drops its end of the duplex. -/
theorem process_end_inevitable (codec : Codec) (labels : List Label) (p : Process)
    (hsaw : AllSteps (step codec) SawEof .start labels)
    (hrun : run (step codec) .start labels = some p) (hclosing : p.main.isClosing = true) :
    Inevitable (step codec) (fun _ label => label.isOwn = true) (fun p => p.isEnded = true) p := by
  have hstart : WayOut codec .start := ⟨inv_start, nofun, nofun, nofun⟩
  have hout : WayOut codec p :=
    invariant_of_allSteps (fun _ _ _ h hok hstep => wayOut_step h hok hstep) hstart hsaw hrun
  have hpres : ∀ q label q', (WayOut codec q ∧ q.main.isClosing = true) →
      Label.isOwn label = true → step codec q label = some q' →
        WayOut codec q' ∧ q'.main.isClosing = true := by
    rintro q label q' ⟨hq, hqclosing⟩ hown hstep
    refine ⟨wayOut_step hq ?_ hstep, (work_step hq hqclosing hown hstep).1⟩
    rintro rfl
    simp only [step] at hstep
    split at hstep
    · rename_i hmain _
      simp [Phase.isClosing, hmain] at hqclosing
    · rename_i hmain _
      simp [Phase.isClosing, hmain] at hqclosing
    · cases hstep
  have hless : ∀ q label q', (WayOut codec q ∧ q.main.isClosing = true) →
      Label.isOwn label = true → step codec q label = some q' → q'.work codec < q.work codec := by
    rintro q label q' ⟨hq, hqclosing⟩ hown hstep
    exact (work_step hq hqclosing hown hstep).2
  refine inevitable_of_guarded_measure (fun q => q.work codec) hpres hless ?_ ⟨hout, hclosing⟩
  rintro q ⟨hq, hqclosing⟩ hended
  exact exists_step_of_wayOut hq hqclosing (Bool.eq_false_of_not_eq_true hended)

/-- The handshake is refused while the client holds stdin open. -/
def sampleRefusal : List Label :=
  [.initResolves (some (.initializeFailed INVALID_PARAMS)), .loadFlag]

theorem process_end_inevitable_sampleRefusal :
    ∃ p, run (step InboundBridge.sampleCodec) .start sampleRefusal = some p ∧
      p.io.isAwaiting = true ∧
      Inevitable (step InboundBridge.sampleCodec) (fun _ label => label.isOwn = true)
        (fun p => p.isEnded = true) p := by
  have hrun : run (step InboundBridge.sampleCodec) .start sampleRefusal = some
      { Process.start with
        rmcp := .refused (.initializeFailed INVALID_PARAMS)
        main := .draining (.rmcp (.initializeFailed INVALID_PARAMS)) } := rfl
  have hsaw : AllSteps (step InboundBridge.sampleCodec) SawEof .start sampleRefusal :=
    ⟨nofun, fun _ _ => ⟨nofun, fun _ _ => trivial⟩⟩
  exact ⟨_, hrun, rfl,
    process_end_inevitable InboundBridge.sampleCodec sampleRefusal _ hsaw hrun rfl⟩

end RustyImap.ServeLifecycle
