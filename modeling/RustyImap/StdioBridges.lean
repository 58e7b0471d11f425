import RustyImap.AsciiBytes
import RustyImap.InboundBridge
import RustyImap.SharedOutput

/-!
# The writers of stdout

`validate_inbound` and `passthrough_outbound` (`inbound.rs` and `outbound.rs` under
`rimap-server/src/mcp/wire_validator/`) as two tasks beside each other, with the third
writer that shares their mutex, `emit_pre_init_error_envelope` of `main.rs`.

`InboundBridge` has the first task as a function of the lines of stdin, whose writes are
done at once.  Here every await is a place where the others go on: a writer waits for the
mutex, its frame goes out in chunks, its writes may fail, and the inbound task may be
aborted at any of its awaits.  rmcp is what writes to the other duplex, in whatever pieces.
-/

namespace RustyImap.StdioBridges

open RustyImap.LabelledRuns RustyImap.SeparatedLines RustyImap.SharedOutput
open RustyImap.AuditLog (Bytes LF utf8)
open RustyImap.InboundBridge (Codec Bridge handleLine synthesizePreInitErrorEnvelope)

inductive Writer where
  | inbound
  | outbound
  | preInit
deriving DecidableEq, Repr

/-- How a task ended, as its `JoinHandle` has it. -/
inductive Completion where
  | returned (ok : Bool)
  | cancelled
  | panicked
deriving DecidableEq, Repr

/-- `ValidatorSupervisor::flatten`, as whether it is `Ok`. -/
def Completion.flatten : Completion → Bool
  | .returned ok => ok
  | .cancelled => true
  | .panicked => false

/-- The awaits of `validate_inbound`, and the two statements after an interception that
    other threads can come between. -/
inductive InboundPhase where
  | reading
  | answering (line : Bytes) (intercepts : Bool)
  | raising              -- before the store of `pre_init_intercepted`
  | closing              -- before the drop of `to_rmcp`
  | forwarding (buf : Bytes)
  | ended (completion : Completion)

inductive OutboundPhase where
  | reading
  | passing (frame : Bytes)
  | ended (completion : Completion)

inductive PreInitPhase where
  | idle
  | emitting (line : Bytes)
  | ended (completion : Completion)

structure Stdio where
  inbound : InboundPhase
  initialized : Bool
  preInitIntercepted : Bool
  lines : List Bytes        -- what has been read of stdin
  forwarded : List Bytes    -- what rmcp has been given of it
  outbound : OutboundPhase
  fromRmcp : Bytes          -- what rmcp has written
  taken : List Bytes        -- the frames that have been read of it
  unread : Bytes            -- the rest
  isOpen : Bool             -- rmcp holds its end of the outbound duplex
  preInit : PreInitPhase
  stdout : Output Writer UInt8
  aborted : Bool            -- `self.inbound.abort()` has been called

def Stdio.start : Stdio where
  inbound := .reading
  initialized := false
  preInitIntercepted := false
  lines := []
  forwarded := []
  outbound := .reading
  fromRmcp := []
  taken := []
  unread := []
  isOpen := true
  preInit := .idle
  stdout := .empty
  aborted := false

/-- The bridge on one line, from a state that has the flag and nothing else. -/
def onFresh (codec : Codec) (buf : Bytes) (initialized : Bool) : Bridge :=
  handleLine codec buf ⟨initialized, false, [], [], false⟩

namespace Stdio

/-- The frame that a writer wants to write, or writes. -/
def wanted (s : Stdio) : Writer → Option Bytes
  | .inbound =>
      match s.inbound with
      | .answering line _ => some line
      | _ => none
  | .outbound =>
      match s.outbound with
      | .passing frame => some frame
      | _ => none
  | .preInit =>
      match s.preInit with
      | .emitting line => some line
      | _ => none

def completion? (s : Stdio) : Writer → Option Completion
  | .inbound =>
      match s.inbound with
      | .ended completion => some completion
      | _ => none
  | .outbound =>
      match s.outbound with
      | .ended completion => some completion
      | _ => none
  | .preInit =>
      match s.preInit with
      | .ended completion => some completion
      | _ => none

/-- The writer is at its end and its mutex guard, if it has it, is dropped. -/
def finish (s : Stdio) (w : Writer) (completion : Completion) : Stdio :=
  let s := { s with stdout := s.stdout.cut w }
  match w with
  | .inbound => { s with inbound := .ended completion }
  | .outbound => { s with outbound := .ended completion }
  | .preInit => { s with preInit := .ended completion }

/-- What a writer goes on with once its frame is out and flushed. -/
def flushed (s : Stdio) : Writer → Stdio
  | .inbound =>
      match s.inbound with
      | .answering _ true => { s with inbound := .raising }
      | _ => { s with inbound := .reading }
  | .outbound => { s with outbound := .reading }
  | .preInit => { s with preInit := .ended (.returned true) }

/-- A read, a write or a flush of the writer may fail here. -/
def canFail (s : Stdio) : Writer → Bool
  | .inbound =>
      match s.inbound with
      | .reading | .forwarding _ => true
      | .answering _ _ => (s.stdout.held? .inbound).isSome
      | .raising | .closing | .ended _ => false
  | .outbound =>
      match s.outbound with
      | .reading => true
      | .passing _ => (s.stdout.held? .outbound).isSome
      | .ended _ => false
  | .preInit =>
      match s.preInit with
      | .emitting _ => (s.stdout.held? .preInit).isSome
      | .idle | .ended _ => false

/-- The inbound task is at an await. -/
def isAwaiting (s : Stdio) : Bool :=
  match s.inbound with
  | .reading | .answering _ _ | .forwarding _ => true
  | .raising | .closing | .ended _ => false

/-- One line of stdin, up to the await that it leads to. -/
def onLine (codec : Codec) (s : Stdio) (buf : Bytes) : Stdio :=
  let b := onFresh codec buf s.initialized
  { s with
    initialized := b.initialized
    lines := s.lines ++ [buf]
    inbound :=
      match b.stdout, b.forwarded with
      | line :: _, _ => .answering (utf8 line) b.preInitIntercepted
      | [], buf :: _ => .forwarding buf
      | [], [] => if b.preInitIntercepted then .raising else .reading }

end Stdio

/-- `read_until(b'\n')` on the outbound duplex: a frame, nothing at its end, or a wait. -/
def nextFrame (unread : Bytes) (isOpen : Bool) : Option Bytes :=
  match unread.findIdx? (· = LF) with
  | some i => some (unread.take (i + 1))
  | none => if isOpen then none else some unread

inductive Label where
  | readLine (buf : Bytes)
  | readEof
  | forward
  | raise
  | close
  | cancel
  | take
  | acquire (w : Writer)
  | write (w : Writer) (n : Nat)
  | flush (w : Writer)
  | fail (w : Writer) (completion : Completion)
  | rmcpWrites (bytes : Bytes)
  | rmcpCloses

def step (codec : Codec) (s : Stdio) : Label → Option Stdio
  | .readLine buf =>
      match s.inbound with
      | .reading => if buf = [] then none else some (s.onLine codec buf)
      | _ => none
  | .readEof =>
      match s.inbound with
      | .reading => some (s.finish .inbound (.returned true))
      | _ => none
  | .forward =>
      match s.inbound with
      | .forwarding buf => some { s with forwarded := s.forwarded ++ [buf], inbound := .reading }
      | _ => none
  | .raise =>
      match s.inbound with
      | .raising => some { s with preInitIntercepted := true, inbound := .closing }
      | _ => none
  | .close =>
      match s.inbound with
      | .closing => some (s.finish .inbound (.returned true))
      | _ => none
  | .cancel =>
      if s.aborted && s.isAwaiting then some (s.finish .inbound .cancelled) else none
  | .take =>
      match s.outbound, nextFrame s.unread s.isOpen with
      | .reading, some [] => some (s.finish .outbound (.returned true))
      | .reading, some (b :: frame) =>
          some { s with
            outbound := .passing (b :: frame)
            taken := s.taken ++ [b :: frame]
            unread := s.unread.drop (b :: frame).length }
      | _, _ => none
  | .acquire w =>
      (s.wanted w).bind fun frame =>
        (s.stdout.acquire w frame).map fun stdout => { s with stdout := stdout }
  | .write w n => (s.stdout.push w n).map fun stdout => { s with stdout := stdout }
  | .flush w => (s.stdout.release w).map fun stdout => { s with stdout := stdout }.flushed w
  | .fail w completion =>
      if s.canFail w && !completion.flatten then some (s.finish w completion) else none
  | .rmcpWrites bytes =>
      if s.isOpen && (s.completion? .outbound).isNone then
        some { s with fromRmcp := s.fromRmcp ++ bytes, unread := s.unread ++ bytes }
      else none
  | .rmcpCloses => if s.isOpen then some { s with isOpen := false } else none

/-! ## What the tasks are for -/

/-- Whether the bridge has returned after an interception, where the phase says. -/
def InboundPhase.returns? : InboundPhase → Option Bool
  | .reading | .forwarding _ => some false
  | .answering _ intercepts => some intercepts
  | .raising | .closing => some true
  | .ended _ => none

namespace Stdio

/-- The writer ended, and not because it was through. -/
def GaveUp (s : Stdio) (w : Writer) : Prop :=
  ∃ completion, s.completion? w = some completion ∧ completion ≠ .returned true

/-- The frames that a writer has begun, with the one that it waits for the lock with. -/
def asked (s : Stdio) (w : Writer) : List Bytes :=
  s.stdout.framesOf w ++ if (s.stdout.held? w).isSome then [] else (s.wanted w).toList

/-- The line that is on its way to rmcp. -/
def forwarding (s : Stdio) : List Bytes :=
  match s.inbound with
  | .forwarding buf => [buf]
  | _ => []

/-- `done` is all there is of `all`, unless `w` gave up in between. -/
def UpTo {β : Type*} (s : Stdio) (w : Writer) (done all : List β) : Prop :=
  done <+: all ∧ (¬ s.GaveUp w → done = all)

end Stdio

/-- The inbound task does what the bridge does on the lines that have been read. -/
structure Follows (codec : Codec) (s : Stdio) (b : Bridge) : Prop where
  run : run (InboundBridge.step codec) .init s.lines = some b
  initialized : b.initialized = s.initialized
  answers : s.UpTo .inbound (s.asked .inbound) (b.stdout.map utf8)
  forwards : s.UpTo .inbound (s.forwarded ++ s.forwarding) b.forwarded
  returned : ∀ r, s.inbound.returns? = some r → b.returned = r
  flag : s.preInitIntercepted = true →
    b.returned = true ∧ (s.inbound = .closing ∨ s.inbound = .ended (.returned true))

/-- The outbound task passes on what rmcp writes, frame by frame. -/
structure Passes (s : Stdio) : Prop where
  passed : s.UpTo .outbound (s.asked .outbound) s.taken
  reads : s.fromRmcp = s.taken.flatten ++ s.unread
  frames : splitKeep LF s.fromRmcp = s.taken ++ splitKeep LF s.unread
  whole : s.isOpen = true → ∀ frame ∈ s.taken, IsLine LF frame
  drained : s.outbound = .ended (.returned true) → s.isOpen = false ∧ s.unread = []

/-- The three writers share the mutex, and a torn frame is the last of a writer that gave
    up. -/
structure Locked (s : Stdio) : Prop where
  consistent : s.stdout.Consistent
  torn : Output.TornLast s.GaveUp s.stdout
  holder : ∀ t, s.stdout.current = some t → s.wanted t.owner = some t.frame

structure Sound (codec : Codec) (s : Stdio) : Prop where
  follows : ∃ b, Follows codec s b
  passes : Passes s
  envelopes : ∀ frame ∈ s.asked .preInit,
    ∃ msg line, synthesizePreInitErrorEnvelope codec msg = some line ∧ frame = utf8 line
  locked : Locked s
  cancelled : ∀ w, s.completion? w = some .cancelled → w = .inbound ∧ s.aborted = true

/-- Of the three writers only this one moves. -/
structure MovesOnly (w : Writer) (s s' : Stdio) : Prop where
  inbound : w ≠ .inbound → s'.inbound = s.inbound
  outbound : w ≠ .outbound → s'.outbound = s.outbound
  preInit : w ≠ .preInit → s'.preInit = s.preInit

/-! ## The end of a writer and the end of a frame -/

section

variable {codec : Codec} {s s' : Stdio} {b : Bridge} {w v : Writer} {completion : Completion}
variable {β : Type*} {done all : List β}

namespace Stdio

@[simp] theorem stdout_finish : (s.finish w completion).stdout = s.stdout.cut w := by
  cases w <;> rfl

theorem completion?_finish :
    (s.finish w completion).completion? v =
      if w = v then some completion else s.completion? v := by
  cases w <;> cases v <;> rfl

theorem wanted_finish :
    (s.finish w completion).wanted v = if w = v then none else s.wanted v := by
  cases w <;> cases v <;> rfl

@[simp] theorem stdout_flushed : (s.flushed w).stdout = s.stdout := by
  unfold flushed
  split
  · split <;> rfl
  · rfl
  · rfl

@[simp] theorem aborted_flushed : (s.flushed w).aborted = s.aborted := by
  unfold flushed
  split
  · split <;> rfl
  · rfl
  · rfl

theorem wanted_flushed : (s.flushed w).wanted v = if w = v then none else s.wanted v := by
  unfold flushed
  split
  · split <;> cases v <;> rfl
  · cases v <;> rfl
  · cases v <;> rfl

theorem completion?_of_wanted {frame : Bytes} (h : s.wanted w = some frame) :
    s.completion? w = none := by
  cases w with
  | inbound =>
      simp only [wanted] at h
      split at h
      · rename_i hphase
        simp [completion?, hphase]
      · cases h
  | outbound =>
      simp only [wanted] at h
      split at h
      · rename_i hphase
        simp [completion?, hphase]
      · cases h
  | preInit =>
      simp only [wanted] at h
      split at h
      · rename_i hphase
        simp [completion?, hphase]
      · cases h

/-- A writer that is through has no frame left; the others are where they were. -/
theorem completion?_flushed (h : s.completion? w = none) :
    (s.flushed w).completion? v = s.completion? v ∨
      v = w ∧ (s.flushed w).completion? v = some (.returned true) := by
  cases w with
  | inbound =>
      left
      have hnone : (s.flushed .inbound).completion? .inbound = none := by
        simp only [flushed]
        split <;> rfl
      cases v with
      | inbound => rw [hnone, h]
      | outbound =>
          simp only [flushed]
          split <;> rfl
      | preInit =>
          simp only [flushed]
          split <;> rfl
  | outbound =>
      left
      cases v with
      | inbound => rfl
      | outbound => exact h.symm
      | preInit => rfl
  | preInit =>
      cases v with
      | inbound => exact .inl rfl
      | outbound => exact .inl rfl
      | preInit => exact .inr ⟨rfl, rfl⟩

@[simp] theorem wanted_withStdout {stdout : Output Writer UInt8} :
    Stdio.wanted { s with stdout := stdout } v = s.wanted v := by
  cases v <;> rfl

@[simp] theorem completion?_withStdout {stdout : Output Writer UInt8} :
    Stdio.completion? { s with stdout := stdout } v = s.completion? v := by
  cases v <;> rfl

theorem gaveUp_finish :
    (s.finish w completion).GaveUp v ↔
      if w = v then completion ≠ .returned true else s.GaveUp v := by
  simp only [GaveUp, completion?_finish]
  by_cases hv : w = v
  · simp [hv]
  · simp [hv]

theorem gaveUp_flushed (h : s.completion? w = none) :
    (s.flushed w).GaveUp v ↔ s.GaveUp v := by
  rcases completion?_flushed (v := v) h with heq | ⟨rfl, heq⟩
  · rw [GaveUp, GaveUp, heq]
  · simp [GaveUp, heq, h]

theorem not_gaveUp_of_none (h : s.completion? w = none) : ¬ s.GaveUp w := by
  rintro ⟨completion, hcompletion, -⟩
  rw [h] at hcompletion
  cases hcompletion

theorem movesOnly_flushed (stdout : Output Writer UInt8) :
    MovesOnly w s (Stdio.flushed { s with stdout := stdout } w) := by
  unfold flushed
  split
  · split <;> exact ⟨fun h => absurd rfl h, fun _ => rfl, fun _ => rfl⟩
  · exact ⟨fun _ => rfl, fun h => absurd rfl h, fun _ => rfl⟩
  · exact ⟨fun _ => rfl, fun _ => rfl, fun h => absurd rfl h⟩

/-! ### The frames that were asked for -/

theorem asked_of_eq (hstdout : s'.stdout = s.stdout) (hwanted : s'.wanted w = s.wanted w) :
    s'.asked w = s.asked w := by
  rw [asked, hstdout, hwanted, asked]

theorem asked_acquire {frame : Bytes} {stdout : Output Writer UInt8}
    (hwanted : s.wanted w = some frame) (h : s.stdout.acquire w frame = some stdout) :
    Stdio.asked { s with stdout := stdout } v = s.asked v := by
  obtain ⟨hbefore, hafter⟩ := Output.held?_of_acquire h v
  simp only [asked, wanted_withStdout, hbefore, hafter, Output.framesOf_acquire h]
  by_cases hv : w = v
  · subst hv
    simp [hwanted]
  · simp [hv]

theorem asked_push {n : Nat} {stdout : Output Writer UInt8}
    (h : s.stdout.push w n = some stdout) :
    Stdio.asked { s with stdout := stdout } v = s.asked v := by
  simp only [asked, wanted_withStdout, Output.held?_of_push h, Output.framesOf_push h]

theorem asked_flushed {stdout : Output Writer UInt8} (h : s.stdout.release w = some stdout) :
    (Stdio.flushed { s with stdout := stdout } w).asked v = s.asked v := by
  obtain ⟨hbefore, hafter⟩ := Output.held?_of_release h v
  have hframes : stdout.framesOf v = s.stdout.framesOf v :=
    Output.framesOf_eq_of_turns v (Output.turns_release h)
  simp only [asked, stdout_flushed, wanted_flushed, wanted_withStdout, hbefore, hafter, hframes]
  by_cases hv : w = v
  · simp [hv]
  · simp [hv]

theorem asked_finish_of_ne (hv : w ≠ v) : (s.finish w completion).asked v = s.asked v := by
  have hframes : (s.stdout.cut w).framesOf v = s.stdout.framesOf v :=
    Output.framesOf_eq_of_turns v Output.turns_cut
  simp only [asked, stdout_finish, wanted_finish, if_neg hv, Output.held?_cut, hframes]

theorem asked_finish : (s.finish w completion).asked w = s.stdout.framesOf w := by
  have hframes : (s.stdout.cut w).framesOf w = s.stdout.framesOf w :=
    Output.framesOf_eq_of_turns w Output.turns_cut
  simp [asked, wanted_finish, hframes]

theorem asked_of_not_wanted (h : s.wanted w = none) : s.asked w = s.stdout.framesOf w := by
  simp [asked, h]

/-! ### What has become of it -/

theorem UpTo.of_eq (h : s.UpTo w done all) (hcompletion : s'.completion? w = s.completion? w) :
    s'.UpTo w done all := by
  refine ⟨h.1, ?_⟩
  intro hlive
  refine h.2 ?_
  rwa [GaveUp, ← hcompletion]

theorem UpTo.append (h : s.UpTo w done all) (hnone : s.completion? w = none) (more : List β) :
    s.UpTo w (done ++ more) (all ++ more) := by
  rw [h.2 (not_gaveUp_of_none hnone)]
  exact ⟨List.prefix_rfl, fun _ => rfl⟩

/-- The writer ends after it has done everything, or gives up. -/
theorem UpTo.finish {done' : List β} (h : s.UpTo w done all) (hnone : s.completion? w = none)
    (hdone : done' <+: done) (hend : completion = .returned true → done' = done) :
    (s.finish w completion).UpTo w done' all := by
  refine ⟨hdone.trans h.1, ?_⟩
  intro hlive
  rw [gaveUp_finish, if_pos rfl, not_not] at hlive
  rw [hend hlive, h.2 (not_gaveUp_of_none hnone)]

end Stdio

theorem MovesOnly.completion? (h : MovesOnly w s s') (hv : w ≠ v) :
    s'.completion? v = s.completion? v := by
  cases v with
  | inbound => simp only [Stdio.completion?, h.inbound hv]
  | outbound => simp only [Stdio.completion?, h.outbound hv]
  | preInit => simp only [Stdio.completion?, h.preInit hv]

theorem MovesOnly.wanted (h : MovesOnly w s s') (hv : w ≠ v) : s'.wanted v = s.wanted v := by
  cases v with
  | inbound => simp only [Stdio.wanted, h.inbound hv]
  | outbound => simp only [Stdio.wanted, h.outbound hv]
  | preInit => simp only [Stdio.wanted, h.preInit hv]

/-! ## The mutex -/

theorem Locked.acquire (h : Locked s) {frame : Bytes} {stdout : Output Writer UInt8}
    (hwanted : s.wanted w = some frame) (hacquire : s.stdout.acquire w frame = some stdout) :
    Locked { s with stdout := stdout } where
  consistent := h.consistent.acquire hacquire
  torn := h.torn.acquire (Stdio.not_gaveUp_of_none (Stdio.completion?_of_wanted hwanted)) hacquire
  holder := by
    intro t ht
    obtain ⟨-, rfl⟩ := Output.acquire_eq_some hacquire
    obtain rfl : (⟨w, frame, []⟩ : Turn Writer UInt8) = t := Option.some.inj ht
    exact Stdio.wanted_withStdout.trans hwanted

theorem Locked.push (h : Locked s) {n : Nat} {stdout : Output Writer UInt8}
    (hpush : s.stdout.push w n = some stdout) : Locked { s with stdout := stdout } where
  consistent := h.consistent.push hpush
  torn := h.torn.push hpush
  holder := by
    intro t ht
    obtain ⟨c, chunk, hcurrent, -, -, -, rfl⟩ := Output.push_eq_some hpush
    obtain rfl : { c with written := c.written ++ chunk } = t := Option.some.inj ht
    exact Stdio.wanted_withStdout.trans (h.holder c hcurrent)

theorem Locked.flush (h : Locked s) {stdout : Output Writer UInt8}
    (hrelease : s.stdout.release w = some stdout) :
    Locked (Stdio.flushed { s with stdout := stdout } w) where
  consistent := by
    rw [Stdio.stdout_flushed]
    exact h.consistent.release hrelease
  torn := by
    rw [Stdio.stdout_flushed]
    have hnone : Stdio.completion? { s with stdout := stdout } w = none := by
      obtain ⟨t, hcurrent, rfl, -, -⟩ := Output.release_eq_some hrelease
      rw [Stdio.completion?_withStdout]
      exact Stdio.completion?_of_wanted (h.holder t hcurrent)
    refine (h.torn.release h.consistent hrelease).mono ?_
    intro v hv
    rwa [Stdio.gaveUp_flushed hnone, Stdio.GaveUp, Stdio.completion?_withStdout]
  holder := by
    rw [Stdio.stdout_flushed]
    intro t ht
    have hfree := (Output.held?_of_release hrelease t.owner).2
    rw [Output.held?_eq_some.mpr ⟨ht, rfl⟩] at hfree
    cases hfree

theorem Locked.finish (h : Locked s) (hnone : s.completion? w = none)
    (hthrough : completion = .returned true → s.wanted w = none) :
    Locked (s.finish w completion) where
  consistent := by
    rw [Stdio.stdout_finish]
    exact h.consistent.cut w
  torn := by
    rw [Stdio.stdout_finish]
    have hmono : ∀ v, s.GaveUp v → (s.finish w completion).GaveUp v := by
      intro v hv
      rw [Stdio.gaveUp_finish]
      split
      · rename_i heq
        rw [← heq] at hv
        exact absurd hv (Stdio.not_gaveUp_of_none hnone)
      · exact hv
    by_cases hend : completion = .returned true
    · have hidle : s.stdout.cut w = s.stdout := by
        rcases Output.cut_cases s.stdout w with ⟨t, hcurrent, rfl, -⟩ | ⟨-, heq⟩
        · have hwanted := h.holder t hcurrent
          rw [hthrough hend] at hwanted
          cases hwanted
        · exact heq
      rw [hidle]
      exact h.torn.mono hmono
    · refine h.torn.cut hmono ?_
      rw [Stdio.gaveUp_finish, if_pos rfl]
      exact hend
  holder := by
    rw [Stdio.stdout_finish]
    intro t ht
    have hheld : (s.stdout.cut w).held? t.owner = some t := Output.held?_eq_some.mpr ⟨ht, rfl⟩
    rw [Output.held?_cut] at hheld
    split at hheld
    · cases hheld
    · rename_i hother
      rw [Stdio.wanted_finish, if_neg hother]
      exact h.holder t (Output.held?_eq_some.mp hheld).1

/-- Steps that leave stdout alone. -/
theorem Locked.of_eq (h : Locked s) (hstdout : s'.stdout = s.stdout)
    (hgone : ∀ v, s.GaveUp v → s'.GaveUp v)
    (hwanted : ∀ v frame, s.wanted v = some frame → s'.wanted v = some frame) : Locked s' where
  consistent := by
    rw [hstdout]
    exact h.consistent
  torn := by
    rw [hstdout]
    exact h.torn.mono hgone
  holder := by
    rw [hstdout]
    intro t ht
    exact hwanted _ _ (h.holder t ht)

/-- A writer that has no frame moves on. -/
theorem Locked.moves (h : Locked s) (honly : MovesOnly w s s') (hstdout : s'.stdout = s.stdout)
    (hnone : s.completion? w = none) (hwanted : s.wanted w = none) : Locked s' := by
  refine h.of_eq hstdout ?_ ?_
  · intro v hv
    by_cases heq : w = v
    · subst heq
      exact absurd hv (Stdio.not_gaveUp_of_none hnone)
    · rwa [Stdio.GaveUp, honly.completion? heq]
  · intro v frame hv
    by_cases heq : w = v
    · subst heq
      rw [hwanted] at hv
      cases hv
    · rwa [honly.wanted heq]

/-! ## The inbound task -/

/-- What one line does to a bridge that has done nothing yet. -/
inductive LineEffect (buf : Bytes) : Bridge → Prop where
  | answered (initialized intercepts : Bool) (line : String) :
      LineEffect buf ⟨initialized, intercepts, [], [line], intercepts⟩
  | forwarded (initialized : Bool) : LineEffect buf ⟨initialized, false, [buf], [], false⟩
  | skipped (initialized : Bool) : LineEffect buf ⟨initialized, false, [], [], false⟩

theorem lineEffect_deliver (codec : Codec) (buf : Bytes) (line : String)
    (modern initialized : Bool) :
    LineEffect buf
      (InboundBridge.deliver codec buf line modern ⟨initialized, false, [], [], false⟩) := by
  unfold InboundBridge.deliver
  split
  · exact .forwarded _
  · exact .skipped _
  · exact .answered _ false _

theorem lineEffect_onFresh (codec : Codec) (buf : Bytes) (initialized : Bool) :
    LineEffect buf (onFresh codec buf initialized) := by
  have h := InboundBridge.handled_handleLine codec buf ⟨initialized, false, [], [], false⟩
  rw [onFresh]
  generalize handleLine codec buf ⟨initialized, false, [], [], false⟩ = t at h ⊢
  cases h with
  | garbled hline => exact .answered _ false _
  | intercepted line req hline hparse hkind => exact .answered _ true _
  | plain line hline hplain => exact lineEffect_deliver codec buf line false initialized
  | first line req hline hparse hinit => exact lineEffect_deliver codec buf line _ _

/-- **A line does the same after whatever came before**: the flag is all that it finds. -/
theorem handleLine_eq (codec : Codec) (buf : Bytes) (b : Bridge) :
    handleLine codec buf b =
      let fresh := onFresh codec buf b.initialized
      ⟨fresh.initialized, b.preInitIntercepted || fresh.preInitIntercepted,
        b.forwarded ++ fresh.forwarded, b.stdout ++ fresh.stdout,
        b.returned || fresh.returned⟩ := by
  obtain ⟨initialized, intercepted, forwarded, stdout, returned⟩ := b
  have hdeliver : ∀ (line : String) (modern flag : Bool),
      InboundBridge.deliver codec buf line modern
          ⟨flag, intercepted, forwarded, stdout, returned⟩ =
        let fresh := InboundBridge.deliver codec buf line modern ⟨flag, false, [], [], false⟩
        ⟨fresh.initialized, intercepted || fresh.preInitIntercepted,
          forwarded ++ fresh.forwarded, stdout ++ fresh.stdout, returned || fresh.returned⟩ := by
    intro line modern flag
    unfold InboundBridge.deliver
    split <;> simp
  simp only [onFresh, handleLine]
  cases hline : InboundBridge.lineForValidation buf with
  | none => simp
  | some line =>
      cases initialized with
      | true => exact hdeliver line false true
      | false =>
          simp only [Bool.false_eq_true, if_false]
          split
          · rename_i req hparse
            cases req.kind == .initializeRequest with
            | true => exact hdeliver line false true
            | false =>
                simp only [Bool.not_false, Bool.true_and, Bool.false_eq_true, if_false]
                split
                · simp
                · exact hdeliver line _ false
          · exact hdeliver line false false

theorem Locked.held?_eq_none (h : Locked s) (hwanted : s.wanted w = none) :
    s.stdout.held? w = none := by
  rw [Option.eq_none_iff_forall_ne_some]
  intro t ht
  obtain ⟨hcurrent, rfl⟩ := Output.held?_eq_some.mp ht
  have hholder := h.holder t hcurrent
  rw [hwanted] at hholder
  cases hholder

/-- Where a line leaves the task, from `reading`. -/
inductive Placed (s : Stdio) (buf : Bytes) : Bridge → InboundPhase → Prop where
  | answered (initialized intercepts : Bool) (line : String) :
      Placed s buf ⟨initialized, intercepts, [], [line], intercepts⟩
        (.answering (utf8 line) intercepts)
  | forwarded (initialized : Bool) :
      Placed s buf ⟨initialized, false, [buf], [], false⟩ (.forwarding buf)
  | skipped (initialized : Bool) : Placed s buf ⟨initialized, false, [], [], false⟩ .reading

theorem placed_onLine (codec : Codec) (s : Stdio) (buf : Bytes) :
    Placed s buf (onFresh codec buf s.initialized) (s.onLine codec buf).inbound := by
  have heffect := lineEffect_onFresh codec buf s.initialized
  unfold Stdio.onLine
  generalize onFresh codec buf s.initialized = fresh at heffect ⊢
  cases heffect with
  | answered initialized intercepts line => exact .answered initialized intercepts line
  | forwarded initialized => exact .forwarded initialized
  | skipped initialized => exact .skipped initialized

theorem Follows.onLine (h : Follows codec s b) (hlocked : Locked s)
    (hreading : s.inbound = .reading) (buf : Bytes) :
    Follows codec (s.onLine codec buf) (handleLine codec buf b) := by
  have hreturned : b.returned = false := h.returned false (by rw [hreading]; rfl)
  have hnone : s.completion? .inbound = none := by simp [Stdio.completion?, hreading]
  have hwanted : s.wanted .inbound = none := by simp [Stdio.wanted, hreading]
  have hforwarding : s.forwarding = [] := by simp [Stdio.forwarding, hreading]
  have hheld := hlocked.held?_eq_none hwanted
  have hanswers := h.answers
  have hforwards := h.forwards
  rw [Stdio.asked_of_not_wanted hwanted] at hanswers
  rw [hforwarding, List.append_nil] at hforwards
  have hflag : s.preInitIntercepted = false := by
    rw [Bool.eq_false_iff]
    intro hset
    rw [(h.flag hset).1] at hreturned
    cases hreturned
  have hplaced := placed_onLine codec s buf
  rw [handleLine_eq, h.initialized]
  have hrun : LabelledRuns.run (InboundBridge.step codec) .init (s.onLine codec buf).lines =
      some (handleLine codec buf b) := by
    refine run_concat _ h.run ?_
    simp [InboundBridge.step, hreturned]
  rw [handleLine_eq, h.initialized] at hrun
  have hstdout : (s.onLine codec buf).stdout = s.stdout := rfl
  have hforwarded : (s.onLine codec buf).forwarded = s.forwarded := rfl
  have hintercepted : (s.onLine codec buf).preInitIntercepted = false := hflag
  have hinit : (onFresh codec buf s.initialized).initialized =
    (s.onLine codec buf).initialized := rfl
  generalize onFresh codec buf s.initialized = fresh at hplaced hrun hinit ⊢
  generalize s.onLine codec buf = t at hplaced hrun hinit hstdout hforwarded hintercepted ⊢
  generalize hphase : t.inbound = phase at hplaced
  have hlive : t.completion? .inbound = none := by
    cases hplaced <;> simp [Stdio.completion?, hphase]
  have hasked : t.asked .inbound = s.stdout.framesOf .inbound ++ fresh.stdout.map utf8 := by
    cases hplaced <;> simp [Stdio.asked, Stdio.wanted, hphase, hstdout, hheld]
  have hforward : t.forwarded ++ t.forwarding = s.forwarded ++ fresh.forwarded := by
    cases hplaced <;> simp [Stdio.forwarding, hphase, hforwarded]
  have hreturns : ∀ r, t.inbound.returns? = some r → fresh.returned = r := by
    intro r hr
    rw [hphase] at hr
    cases hplaced <;> exact Option.some.inj hr
  refine ⟨hrun, hinit, ?_, ?_, ?_, ?_⟩
  · rw [hasked, List.map_append]
    exact (hanswers.append hnone _).of_eq (hlive.trans hnone.symm)
  · rw [hforward]
    exact (hforwards.append hnone _).of_eq (hlive.trans hnone.symm)
  · intro r hr
    simp only [hreturned, Bool.false_or]
    exact hreturns r hr
  · intro hset
    rw [hintercepted] at hset
    cases hset

/-- Steps that leave the inbound task alone. -/
theorem Follows.of_eq (h : Follows codec s b) (hinbound : s'.inbound = s.inbound)
    (hinit : s'.initialized = s.initialized)
    (hflag : s'.preInitIntercepted = s.preInitIntercepted) (hlines : s'.lines = s.lines)
    (hforwarded : s'.forwarded = s.forwarded) (hasked : s'.asked .inbound = s.asked .inbound) :
    Follows codec s' b := by
  have hcompletion : s'.completion? .inbound = s.completion? .inbound := by
    simp only [Stdio.completion?, hinbound]
  have hforwarding : s'.forwarding = s.forwarding := by simp only [Stdio.forwarding, hinbound]
  refine ⟨?_, ?_, ?_, ?_, ?_, ?_⟩
  · rw [hlines]
    exact h.run
  · rw [hinit]
    exact h.initialized
  · rw [hasked]
    exact h.answers.of_eq hcompletion
  · rw [hforwarded, hforwarding]
    exact h.forwards.of_eq hcompletion
  · rw [hinbound]
    exact h.returned
  · rw [hflag, hinbound]
    exact h.flag

/-- The inbound task goes on to another phase, with all that it did behind it. -/
theorem Follows.moves (h : Follows codec s b) {phase : InboundPhase} (hlive : s'.inbound = phase)
    (hnone : s'.completion? .inbound = none) (hbefore : s.completion? .inbound = none)
    (hinit : s'.initialized = s.initialized) (hlines : s'.lines = s.lines)
    (hasked : s'.asked .inbound = s.asked .inbound)
    (hforward : s'.forwarded ++ s'.forwarding = s.forwarded ++ s.forwarding)
    (hreturned : ∀ r, phase.returns? = some r → s.inbound.returns? = some r)
    (hflag : s'.preInitIntercepted = true → s.inbound.returns? = some true ∧ phase = .closing) :
    Follows codec s' b := by
  refine ⟨?_, ?_, ?_, ?_, ?_, ?_⟩
  · rw [hlines]
    exact h.run
  · rw [hinit]
    exact h.initialized
  · rw [hasked]
    exact h.answers.of_eq (hnone.trans hbefore.symm)
  · rw [hforward]
    exact h.forwards.of_eq (hnone.trans hbefore.symm)
  · intro r hr
    rw [hlive] at hr
    exact h.returned r (hreturned r hr)
  · intro hset
    obtain ⟨hreturns, hclosing⟩ := hflag hset
    exact ⟨h.returned true hreturns, .inl (hlive.trans hclosing)⟩

/-- The inbound task ends: through with everything, or not. -/
theorem Follows.finish (h : Follows codec s b) (hnone : s.completion? .inbound = none)
    (hwanted : completion = .returned true → s.wanted .inbound = none ∧ s.forwarding = [])
    (hflag : s.preInitIntercepted = true → completion = .returned true) :
    Follows codec (s.finish .inbound completion) b where
  run := h.run
  initialized := h.initialized
  answers := by
    refine h.answers.finish hnone ?_ ?_
    · rw [Stdio.asked_finish]
      exact List.prefix_append _ _
    · intro hend
      rw [Stdio.asked_finish, Stdio.asked_of_not_wanted (hwanted hend).1]
  forwards := by
    refine h.forwards.finish hnone ?_ ?_
    · exact List.prefix_append_right_inj _ |>.mpr List.nil_prefix
    · intro hend
      rw [(hwanted hend).2]
      rfl
  returned := by
    intro r hr
    cases hr
  flag := by
    intro hset
    exact ⟨(h.flag hset).1, .inr (by rw [hflag hset]; rfl)⟩

/-! ## The outbound task -/

/-- A frame is a line, or what is left when rmcp is gone. -/
theorem nextFrame_eq_some {unread frame : Bytes} {isOpen : Bool}
    (h : nextFrame unread isOpen = some frame) :
    ∃ rest, unread = frame ++ rest ∧
      (IsLine LF frame ∨ isOpen = false ∧ rest = [] ∧ LF ∉ frame) := by
  unfold nextFrame at h
  split at h
  · rename_i i hi
    obtain ⟨hlt, hLF, hbefore⟩ := List.findIdx?_eq_some_iff_getElem.mp hi
    obtain rfl : unread.take (i + 1) = frame := Option.some.inj h
    refine ⟨unread.drop (i + 1), (List.take_append_drop _ _).symm, .inl ?_⟩
    refine ⟨unread.take i, ?_, ?_⟩
    · intro hmem
      obtain ⟨j, hj, heq⟩ := List.getElem_of_mem hmem
      have hji : j < i := by
        rw [List.length_take] at hj
        omega
      rw [List.getElem_take] at heq
      exact hbefore j hji (decide_eq_true heq)
    · rw [List.take_add_one, List.getElem?_eq_getElem hlt, of_decide_eq_true hLF]
      rfl
  · rename_i hnone
    cases isOpen with
    | true => cases h
    | false =>
        obtain rfl : unread = frame := by simpa using h
        refine ⟨[], (List.append_nil _).symm, .inr ⟨rfl, rfl, ?_⟩⟩
        intro hmem
        have hno := List.findIdx?_eq_none_iff.mp hnone LF hmem
        simp at hno

theorem Passes.of_eq (h : Passes s) (houtbound : s'.outbound = s.outbound)
    (hfrom : s'.fromRmcp = s.fromRmcp) (htaken : s'.taken = s.taken)
    (hunread : s'.unread = s.unread) (hopen : s'.isOpen = true → s.isOpen = true)
    (hasked : s'.asked .outbound = s.asked .outbound) : Passes s' where
  passed := by
    rw [hasked, htaken]
    exact h.passed.of_eq (by simp only [Stdio.completion?, houtbound])
  reads := by rw [hfrom, htaken, hunread, h.reads]
  frames := by rw [hfrom, htaken, hunread, h.frames]
  whole := by
    rw [htaken]
    exact fun hset => h.whole (hopen hset)
  drained := by
    rw [houtbound, hunread]
    intro hend
    obtain ⟨hclosed, hempty⟩ := h.drained hend
    refine ⟨?_, hempty⟩
    rw [Bool.eq_false_iff]
    intro hset
    rw [hopen hset] at hclosed
    cases hclosed

theorem Passes.take (h : Passes s) (hlocked : Locked s) (hreading : s.outbound = .reading)
    {frame : Bytes} (hframe : nextFrame s.unread s.isOpen = some frame) (hnonempty : frame ≠ []) :
    Passes { s with
      outbound := .passing frame
      taken := s.taken ++ [frame]
      unread := s.unread.drop frame.length } := by
  obtain ⟨rest, hunread, hline⟩ := nextFrame_eq_some hframe
  have hrest : s.unread.drop frame.length = rest := by rw [hunread, List.drop_left]
  have hsplit : splitKeep LF s.unread = frame :: splitKeep LF rest := by
    rw [hunread]
    rcases hline with hline | ⟨-, rfl, hLF⟩
    · exact splitKeep_line_append hline rest
    · rw [List.append_nil, splitKeep_of_not_mem hnonempty hLF]
      rfl
  have hnone : s.completion? .outbound = none := by simp [Stdio.completion?, hreading]
  have hwanted : s.wanted .outbound = none := by simp [Stdio.wanted, hreading]
  have hheld := hlocked.held?_eq_none hwanted
  rw [hrest]
  refine ⟨?_, ?_, ?_, ?_, ?_⟩
  · have hpassed := h.passed
    rw [Stdio.asked_of_not_wanted hwanted] at hpassed
    have hasked : Stdio.asked { s with
        outbound := .passing frame, taken := s.taken ++ [frame], unread := rest } .outbound =
        s.stdout.framesOf .outbound ++ [frame] := by
      simp [Stdio.asked, Stdio.wanted, hheld]
    rw [hasked]
    exact (hpassed.append hnone [frame]).of_eq hnone.symm
  · rw [h.reads, hunread]
    simp
  · rw [h.frames, hsplit]
    simp
  · intro hopen f hf
    rcases List.mem_append.mp hf with hf | hf
    · exact h.whole hopen f hf
    · rw [List.mem_singleton.mp hf]
      rcases hline with hline | ⟨hclosed, -⟩
      · exact hline
      · rw [hopen] at hclosed
        cases hclosed
  · intro hend
    cases hend

theorem Passes.finish (h : Passes s) (hnone : s.completion? .outbound = none)
    (hwanted : completion = .returned true → s.wanted .outbound = none)
    (hdrained : completion = .returned true → s.isOpen = false ∧ s.unread = []) :
    Passes (s.finish .outbound completion) where
  passed := by
    refine h.passed.finish hnone ?_ ?_
    · rw [Stdio.asked_finish]
      exact List.prefix_append _ _
    · intro hend
      rw [Stdio.asked_finish, Stdio.asked_of_not_wanted (hwanted hend)]
  reads := h.reads
  frames := h.frames
  whole := h.whole
  drained := by
    intro hend
    have hcompletion : OutboundPhase.ended completion = .ended (.returned true) := hend
    cases hcompletion
    exact hdrained rfl

/-- The end of a frame. -/
theorem Passes.moves (h : Passes s) (hbefore : s.completion? .outbound = none)
    (houtbound : s'.outbound = .reading) (hfrom : s'.fromRmcp = s.fromRmcp)
    (htaken : s'.taken = s.taken) (hunread : s'.unread = s.unread) (hopen : s'.isOpen = s.isOpen)
    (hasked : s'.asked .outbound = s.asked .outbound) : Passes s' where
  passed := by
    rw [hasked, htaken]
    refine h.passed.of_eq ?_
    rw [hbefore]
    simp [Stdio.completion?, houtbound]
  reads := by rw [hfrom, htaken, hunread, h.reads]
  frames := by rw [hfrom, htaken, hunread, h.frames]
  whole := by
    rw [htaken, hopen]
    exact h.whole
  drained := by
    rw [houtbound]
    intro hend
    cases hend

theorem Passes.writes (h : Passes s) (hopen : s.isOpen = true)
    (hnone : s.completion? .outbound = none) (bytes : Bytes) :
    Passes { s with fromRmcp := s.fromRmcp ++ bytes, unread := s.unread ++ bytes } where
  passed := h.passed.of_eq rfl
  reads := by
    rw [h.reads, List.append_assoc]
  frames := by
    rw [h.reads, List.append_assoc, splitKeep_flatten_append (h.whole hopen)]
  whole := h.whole
  drained := by
    intro hend
    have houtbound : s.outbound = .ended (.returned true) := hend
    simp [Stdio.completion?, houtbound] at hnone

/-! ## One step -/

/-- What a step can do, with what it finds. -/
inductive Transition (codec : Codec) (s : Stdio) : Label → Stdio → Prop where
  | readLine (buf : Bytes) (hreading : s.inbound = .reading) (hbuf : buf ≠ []) :
      Transition codec s (.readLine buf) (s.onLine codec buf)
  | readEof (hreading : s.inbound = .reading) :
      Transition codec s .readEof (s.finish .inbound (.returned true))
  | forward (buf : Bytes) (hforwarding : s.inbound = .forwarding buf) :
      Transition codec s .forward
        { s with forwarded := s.forwarded ++ [buf], inbound := .reading }
  | raise (hraising : s.inbound = .raising) :
      Transition codec s .raise { s with preInitIntercepted := true, inbound := .closing }
  | close (hclosing : s.inbound = .closing) :
      Transition codec s .close (s.finish .inbound (.returned true))
  | cancel (haborted : s.aborted = true) (hawaiting : s.isAwaiting = true) :
      Transition codec s .cancel (s.finish .inbound .cancelled)
  | takeEnd (hreading : s.outbound = .reading) (hframe : nextFrame s.unread s.isOpen = some []) :
      Transition codec s .take (s.finish .outbound (.returned true))
  | take (frame : Bytes) (hreading : s.outbound = .reading)
      (hframe : nextFrame s.unread s.isOpen = some frame) (hnonempty : frame ≠ []) :
      Transition codec s .take
        { s with
          outbound := .passing frame
          taken := s.taken ++ [frame]
          unread := s.unread.drop frame.length }
  | acquire (w : Writer) (frame : Bytes) (stdout : Output Writer UInt8)
      (hwanted : s.wanted w = some frame) (hacquire : s.stdout.acquire w frame = some stdout) :
      Transition codec s (.acquire w) { s with stdout := stdout }
  | write (w : Writer) (n : Nat) (stdout : Output Writer UInt8)
      (hpush : s.stdout.push w n = some stdout) :
      Transition codec s (.write w n) { s with stdout := stdout }
  | flush (w : Writer) (stdout : Output Writer UInt8)
      (hrelease : s.stdout.release w = some stdout) :
      Transition codec s (.flush w) (Stdio.flushed { s with stdout := stdout } w)
  | fail (w : Writer) (completion : Completion) (hcan : s.canFail w = true)
      (hfailure : completion.flatten = false) :
      Transition codec s (.fail w completion) (s.finish w completion)
  | rmcpWrites (bytes : Bytes) (hopen : s.isOpen = true)
      (hnone : s.completion? .outbound = none) :
      Transition codec s (.rmcpWrites bytes)
        { s with fromRmcp := s.fromRmcp ++ bytes, unread := s.unread ++ bytes }
  | rmcpCloses (hopen : s.isOpen = true) :
      Transition codec s .rmcpCloses { s with isOpen := false }

theorem transition_of_step {label : Label} {t : Stdio} (h : step codec s label = some t) :
    Transition codec s label t := by
  cases label with
  | readLine buf =>
      simp only [step] at h
      split at h
      · rename_i hreading
        split at h
        · cases h
        · rename_i hbuf
          cases h
          exact .readLine buf hreading hbuf
      · cases h
  | readEof =>
      simp only [step] at h
      split at h
      · rename_i hreading
        cases h
        exact .readEof hreading
      · cases h
  | forward =>
      simp only [step] at h
      split at h
      · rename_i buf hforwarding
        cases h
        exact .forward buf hforwarding
      · cases h
  | raise =>
      simp only [step] at h
      split at h
      · rename_i hraising
        cases h
        exact .raise hraising
      · cases h
  | close =>
      simp only [step] at h
      split at h
      · rename_i hclosing
        cases h
        exact .close hclosing
      · cases h
  | cancel =>
      simp only [step] at h
      split at h
      · rename_i hcan
        cases h
        rw [Bool.and_eq_true] at hcan
        exact .cancel hcan.1 hcan.2
      · cases h
  | take =>
      simp only [step] at h
      split at h
      · rename_i hreading hframe
        cases h
        exact .takeEnd hreading hframe
      · rename_i c frame hreading hframe
        cases h
        exact .take (c :: frame) hreading hframe (List.cons_ne_nil c frame)
      · cases h
  | acquire w =>
      obtain ⟨frame, hwanted, h⟩ := Option.bind_eq_some_iff.mp h
      obtain ⟨stdout, hacquire, rfl⟩ := Option.map_eq_some_iff.mp h
      exact .acquire w frame stdout hwanted hacquire
  | write w n =>
      obtain ⟨stdout, hpush, rfl⟩ := Option.map_eq_some_iff.mp h
      exact .write w n stdout hpush
  | flush w =>
      obtain ⟨stdout, hrelease, rfl⟩ := Option.map_eq_some_iff.mp h
      exact .flush w stdout hrelease
  | fail w completion =>
      simp only [step] at h
      split at h
      · rename_i hcan
        cases h
        rw [Bool.and_eq_true, Bool.not_eq_true'] at hcan
        exact .fail w completion hcan.1 hcan.2
      · cases h
  | rmcpWrites bytes =>
      simp only [step] at h
      split at h
      · rename_i hopen
        cases h
        rw [Bool.and_eq_true, Option.isNone_iff_eq_none] at hopen
        exact .rmcpWrites bytes hopen.1 hopen.2
      · cases h
  | rmcpCloses =>
      simp only [step] at h
      split at h
      · rename_i hopen
        cases h
        exact .rmcpCloses hopen
      · cases h

theorem completion?_of_canFail (h : s.canFail w = true) : s.completion? w = none := by
  cases w with
  | inbound => cases hphase : s.inbound <;> simp [Stdio.canFail, Stdio.completion?, hphase] at h ⊢
  | outbound => cases hphase : s.outbound <;> simp [Stdio.canFail, Stdio.completion?, hphase] at h ⊢
  | preInit => cases hphase : s.preInit <;> simp [Stdio.canFail, Stdio.completion?, hphase] at h ⊢

/-- A writer that goes on, or ends on its own, is no task that was cut. -/
theorem Sound.cancelled_of_movesOnly (h : Sound codec s) (honly : MovesOnly w s s')
    (haborted : s'.aborted = s.aborted) (hnot : s'.completion? w ≠ some .cancelled) :
    ∀ v, s'.completion? v = some .cancelled → v = .inbound ∧ s'.aborted = true := by
  intro v hv
  by_cases heq : w = v
  · subst heq
    exact absurd hv hnot
  · rw [honly.completion? heq] at hv
    rw [haborted]
    exact h.cancelled v hv

/-- The inbound task ends. -/
theorem Sound.finishInbound (h : Sound codec s) (hnone : s.completion? .inbound = none)
    (hthrough : completion = .returned true → s.wanted .inbound = none ∧ s.forwarding = [])
    (hflag : s.preInitIntercepted = true → completion = .returned true)
    (hcancelled : completion = .cancelled → s.aborted = true) :
    Sound codec (s.finish .inbound completion) where
  follows := by
    obtain ⟨b, hb⟩ := h.follows
    exact ⟨b, hb.finish hnone hthrough hflag⟩
  passes := by
    refine h.passes.of_eq rfl rfl rfl rfl (fun hset => hset) ?_
    exact Stdio.asked_finish_of_ne (by decide)
  envelopes := by
    rw [Stdio.asked_finish_of_ne (by decide)]
    exact h.envelopes
  locked := h.locked.finish hnone fun hend => (hthrough hend).1
  cancelled := by
    intro v hv
    rw [Stdio.completion?_finish] at hv
    split at hv
    · rename_i heq
      cases hv
      exact ⟨heq.symm, hcancelled rfl⟩
    · exact h.cancelled v hv

/-- The outbound task ends. -/
theorem Sound.finishOutbound (h : Sound codec s) (hnone : s.completion? .outbound = none)
    (hthrough : completion = .returned true →
      s.wanted .outbound = none ∧ s.isOpen = false ∧ s.unread = [])
    (hcompletion : completion ≠ .cancelled) : Sound codec (s.finish .outbound completion) where
  follows := by
    obtain ⟨b, hb⟩ := h.follows
    exact ⟨b, hb.of_eq rfl rfl rfl rfl rfl (Stdio.asked_finish_of_ne (by decide))⟩
  passes := h.passes.finish hnone (fun hend => (hthrough hend).1) fun hend => (hthrough hend).2
  envelopes := by
    rw [Stdio.asked_finish_of_ne (by decide)]
    exact h.envelopes
  locked := h.locked.finish hnone fun hend => (hthrough hend).1
  cancelled := by
    intro v hv
    rw [Stdio.completion?_finish] at hv
    split at hv
    · cases hv
      exact absurd rfl hcompletion
    · exact h.cancelled v hv

theorem Sound.finishPreInit (h : Sound codec s) (hnone : s.completion? .preInit = none)
    (hcompletion : completion.flatten = false) : Sound codec (s.finish .preInit completion) where
  follows := by
    obtain ⟨b, hb⟩ := h.follows
    exact ⟨b, hb.of_eq rfl rfl rfl rfl rfl (Stdio.asked_finish_of_ne (by decide))⟩
  passes := by
    refine h.passes.of_eq rfl rfl rfl rfl (fun hset => hset) ?_
    exact Stdio.asked_finish_of_ne (by decide)
  envelopes := by
    rw [Stdio.asked_finish]
    intro frame hframe
    exact h.envelopes frame (List.mem_append_left _ hframe)
  locked := by
    refine h.locked.finish hnone ?_
    rintro rfl
    cases hcompletion
  cancelled := by
    intro v hv
    rw [Stdio.completion?_finish] at hv
    split at hv
    · cases hv
      cases hcompletion
    · exact h.cancelled v hv

theorem Sound.preInitIntercepted_of_isAwaiting (h : Sound codec s)
    (hawaiting : s.isAwaiting = true) : s.preInitIntercepted = false := by
  rw [Bool.eq_false_iff]
  intro hset
  obtain ⟨b, hb⟩ := h.follows
  rcases (hb.flag hset).2 with hphase | hphase
  · simp [Stdio.isAwaiting, hphase] at hawaiting
  · simp [Stdio.isAwaiting, hphase] at hawaiting

theorem isAwaiting_of_canFail (h : s.canFail .inbound = true) : s.isAwaiting = true := by
  cases hphase : s.inbound <;> simp [Stdio.canFail, Stdio.isAwaiting, hphase] at h ⊢

theorem completion?_of_isAwaiting (h : s.isAwaiting = true) : s.completion? .inbound = none := by
  cases hphase : s.inbound <;> simp [Stdio.completion?, Stdio.isAwaiting, hphase] at h ⊢

/-- The inbound task goes on to another phase and stdout is as it was. -/
theorem Sound.movesInbound (h : Sound codec s) (phase : InboundPhase) (forwarded : List Bytes)
    (intercepted : Bool) (hwanted : s.wanted .inbound = none)
    (hbefore : s.completion? .inbound = none) (hphase : phase = .reading ∨ phase = .closing)
    (hforward : forwarded = s.forwarded ++ s.forwarding)
    (hreturned : ∀ r, phase.returns? = some r → s.inbound.returns? = some r)
    (hflag : intercepted = true → s.inbound.returns? = some true ∧ phase = .closing) :
    Sound codec
      { s with forwarded := forwarded, preInitIntercepted := intercepted, inbound := phase } := by
  have hwanted' : Stdio.wanted { s with
      forwarded := forwarded, preInitIntercepted := intercepted, inbound := phase } .inbound =
      none := by
    rcases hphase with rfl | rfl <;> rfl
  have hnone : Stdio.completion? { s with
      forwarded := forwarded, preInitIntercepted := intercepted, inbound := phase } .inbound =
      none := by
    rcases hphase with rfl | rfl <;> rfl
  have hforwarding : Stdio.forwarding { s with
      forwarded := forwarded, preInitIntercepted := intercepted, inbound := phase } = [] := by
    rcases hphase with rfl | rfl <;> rfl
  have honly : MovesOnly .inbound s { s with
      forwarded := forwarded, preInitIntercepted := intercepted, inbound := phase } :=
    ⟨fun h => absurd rfl h, fun _ => rfl, fun _ => rfl⟩
  refine ⟨?_, ?_, h.envelopes, h.locked.moves honly rfl hbefore hwanted, ?_⟩
  · obtain ⟨b, hb⟩ := h.follows
    refine ⟨b, hb.moves rfl hnone hbefore rfl rfl ?_ ?_ hreturned hflag⟩
    · exact Stdio.asked_of_eq rfl (hwanted'.trans hwanted.symm)
    · rw [hforwarding, List.append_nil]
      exact hforward
  · exact h.passes.of_eq rfl rfl rfl rfl (fun hset => hset) (Stdio.asked_of_eq rfl rfl)
  · exact h.cancelled_of_movesOnly honly rfl (by simp [hnone])

/-- Only the holder of the mutex, or how far it is, is another. -/
theorem Sound.ofStdout (h : Sound codec s) {stdout : Output Writer UInt8}
    (hlocked : Locked { s with stdout := stdout })
    (hasked : ∀ v, Stdio.asked { s with stdout := stdout } v = s.asked v) :
    Sound codec { s with stdout := stdout } := by
  refine ⟨?_, ?_, ?_, hlocked, ?_⟩
  · obtain ⟨b, hb⟩ := h.follows
    exact ⟨b, hb.of_eq rfl rfl rfl rfl rfl (hasked .inbound)⟩
  · exact h.passes.of_eq rfl rfl rfl rfl (fun hset => hset) (hasked .outbound)
  · rw [hasked]
    exact h.envelopes
  · intro v hv
    rw [Stdio.completion?_withStdout] at hv
    exact h.cancelled v hv

theorem Sound.flush (h : Sound codec s) {stdout : Output Writer UInt8}
    (hrelease : s.stdout.release w = some stdout) :
    Sound codec (Stdio.flushed { s with stdout := stdout } w) := by
  have hwanted : ∃ frame, s.wanted w = some frame := by
    obtain ⟨t, hcurrent, rfl, -, -⟩ := Output.release_eq_some hrelease
    exact ⟨t.frame, h.locked.holder t hcurrent⟩
  obtain ⟨frame, hframe⟩ := hwanted
  have hasked : ∀ v, (Stdio.flushed { s with stdout := stdout } w).asked v = s.asked v :=
    fun v => Stdio.asked_flushed hrelease
  have hlocked := h.locked.flush hrelease
  have henvelopes : ∀ frame ∈ (Stdio.flushed { s with stdout := stdout } w).asked .preInit,
      ∃ msg line, synthesizePreInitErrorEnvelope codec msg = some line ∧ frame = utf8 line := by
    rw [hasked]
    exact h.envelopes
  have hcancelled : ∀ v,
      (Stdio.flushed { s with stdout := stdout } w).completion? v = some .cancelled →
        v = .inbound ∧ (Stdio.flushed { s with stdout := stdout } w).aborted = true := by
    refine h.cancelled_of_movesOnly (Stdio.movesOnly_flushed stdout) Stdio.aborted_flushed ?_
    have hnone : Stdio.completion? { s with stdout := stdout } w = none :=
      Stdio.completion?_withStdout.trans (Stdio.completion?_of_wanted hframe)
    rcases Stdio.completion?_flushed (v := w) hnone with heq | ⟨-, heq⟩
    · simp [heq, hnone]
    · simp [heq]
  obtain ⟨b, hb⟩ := h.follows
  cases w with
  | inbound =>
      simp only [Stdio.wanted] at hframe
      split at hframe
      · rename_i line intercepts hphase
        have hflag : s.preInitIntercepted = false :=
          h.preInitIntercepted_of_isAwaiting (by simp [Stdio.isAwaiting, hphase])
        have hbefore : s.completion? .inbound = none := by simp [Stdio.completion?, hphase]
        have hforwarding : s.forwarding = [] := by simp [Stdio.forwarding, hphase]
        have ht : Stdio.flushed { s with stdout := stdout } .inbound =
            { s with stdout := stdout, inbound := if intercepts then .raising else .reading } := by
          cases intercepts <;> simp [Stdio.flushed, hphase]
        rw [ht] at hasked hlocked henvelopes hcancelled ⊢
        have hnone : Stdio.completion? { s with
            stdout := stdout, inbound := if intercepts then .raising else .reading } .inbound =
            none := by
          cases intercepts <;> rfl
        refine ⟨⟨b, hb.moves rfl hnone hbefore rfl rfl (hasked .inbound) ?_ ?_ ?_⟩,
          ?_, henvelopes, hlocked, hcancelled⟩
        · rw [hforwarding]
          cases intercepts <;> rfl
        · intro r hr
          rw [hphase]
          cases intercepts <;> exact hr
        · intro hset
          have hset' : s.preInitIntercepted = true := hset
          rw [hset'] at hflag
          cases hflag
        · exact h.passes.of_eq rfl rfl rfl rfl (fun hset => hset) (hasked .outbound)
      · cases hframe
  | outbound =>
      have hbefore : s.completion? .outbound = none := Stdio.completion?_of_wanted hframe
      refine ⟨⟨b, hb.of_eq rfl rfl rfl rfl rfl (hasked .inbound)⟩,
        ?_, henvelopes, hlocked, hcancelled⟩
      exact h.passes.moves hbefore rfl rfl rfl rfl rfl (hasked .outbound)
  | preInit =>
      refine ⟨⟨b, hb.of_eq rfl rfl rfl rfl rfl (hasked .inbound)⟩,
        ?_, henvelopes, hlocked, hcancelled⟩
      exact h.passes.of_eq rfl rfl rfl rfl (fun hset => hset) (hasked .outbound)

/-- **Every step keeps the three tasks sound.** -/
theorem sound_step {label : Label} {t : Stdio} (h : Sound codec s)
    (hstep : step codec s label = some t) : Sound codec t := by
  cases transition_of_step hstep with
  | readLine buf hreading hbuf =>
      obtain ⟨b, hb⟩ := h.follows
      have hwanted : s.wanted .inbound = none := by simp [Stdio.wanted, hreading]
      have hbefore : s.completion? .inbound = none := by simp [Stdio.completion?, hreading]
      have hnone : (s.onLine codec buf).completion? .inbound = none := by
        have hplaced := placed_onLine codec s buf
        generalize hphase : (s.onLine codec buf).inbound = phase at hplaced
        generalize onFresh codec buf s.initialized = fresh at hplaced
        cases hplaced <;> simp [Stdio.completion?, hphase]
      have honly : MovesOnly .inbound s (s.onLine codec buf) :=
        ⟨fun h => absurd rfl h, fun _ => rfl, fun _ => rfl⟩
      refine ⟨⟨_, hb.onLine h.locked hreading buf⟩, ?_, h.envelopes,
        h.locked.moves honly rfl hbefore hwanted, ?_⟩
      · exact h.passes.of_eq rfl rfl rfl rfl (fun hset => hset) (Stdio.asked_of_eq rfl rfl)
      · exact h.cancelled_of_movesOnly honly rfl (by simp [hnone])
  | readEof hreading =>
      refine h.finishInbound (by simp [Stdio.completion?, hreading]) ?_ (fun _ => rfl) nofun
      intro _
      simp [Stdio.wanted, Stdio.forwarding, hreading]
  | forward buf hforwarding =>
      have hflag : s.preInitIntercepted = false :=
        h.preInitIntercepted_of_isAwaiting (by simp [Stdio.isAwaiting, hforwarding])
      refine h.movesInbound .reading _ s.preInitIntercepted ?_ ?_ (.inl rfl) ?_ ?_ ?_
      · simp [Stdio.wanted, hforwarding]
      · simp [Stdio.completion?, hforwarding]
      · simp [Stdio.forwarding, hforwarding]
      · intro r hr
        rw [hforwarding]
        exact hr
      · intro hset
        rw [hflag] at hset
        cases hset
  | raise hraising =>
      refine h.movesInbound .closing s.forwarded true ?_ ?_ (.inr rfl) ?_ ?_ ?_
      · simp [Stdio.wanted, hraising]
      · simp [Stdio.completion?, hraising]
      · simp [Stdio.forwarding, hraising]
      · intro r hr
        rw [hraising]
        exact hr
      · intro _
        rw [hraising]
        exact ⟨rfl, rfl⟩
  | close hclosing =>
      refine h.finishInbound (by simp [Stdio.completion?, hclosing]) ?_ (fun _ => rfl) nofun
      intro _
      simp [Stdio.wanted, Stdio.forwarding, hclosing]
  | cancel haborted hawaiting =>
      refine h.finishInbound (completion?_of_isAwaiting hawaiting) nofun ?_ fun _ => haborted
      intro hset
      rw [h.preInitIntercepted_of_isAwaiting hawaiting] at hset
      cases hset
  | takeEnd hreading hframe =>
      obtain ⟨rest, hunread, hline⟩ := nextFrame_eq_some hframe
      refine h.finishOutbound (by simp [Stdio.completion?, hreading]) ?_ nofun
      intro _
      rcases hline with ⟨body, -, hbody⟩ | ⟨hclosed, rfl, -⟩
      · exact absurd hbody.symm (List.append_ne_nil_of_right_ne_nil _ (List.cons_ne_nil _ _))
      · exact ⟨by simp [Stdio.wanted, hreading], hclosed, hunread⟩
  | take frame hreading hframe hnonempty =>
      obtain ⟨b, hb⟩ := h.follows
      have honly : MovesOnly .outbound s { s with
          outbound := .passing frame
          taken := s.taken ++ [frame]
          unread := s.unread.drop frame.length } :=
        ⟨fun _ => rfl, fun h => absurd rfl h, fun _ => rfl⟩
      refine ⟨⟨b, hb.of_eq rfl rfl rfl rfl rfl (Stdio.asked_of_eq rfl rfl)⟩,
        ?_, h.envelopes, ?_, ?_⟩
      · exact h.passes.take h.locked hreading hframe hnonempty
      · refine h.locked.moves honly rfl ?_ ?_
        · simp [Stdio.completion?, hreading]
        · simp [Stdio.wanted, hreading]
      · exact h.cancelled_of_movesOnly honly rfl (by simp [Stdio.completion?])
  | acquire w frame stdout hwanted hacquire =>
      exact h.ofStdout (h.locked.acquire hwanted hacquire) fun v =>
        Stdio.asked_acquire hwanted hacquire
  | write w n stdout hpush =>
      exact h.ofStdout (h.locked.push hpush) fun v => Stdio.asked_push hpush
  | flush w stdout hrelease => exact h.flush hrelease
  | fail w completion hcan hfailure =>
      have hnone := completion?_of_canFail hcan
      have hcompletion : completion ≠ .cancelled := by
        rintro rfl
        cases hfailure
      have hreturned : completion ≠ .returned true := by
        rintro rfl
        cases hfailure
      cases w with
      | inbound =>
          refine h.finishInbound hnone (fun hend => absurd hend hreturned) ?_
            fun hend => absurd hend hcompletion
          intro hset
          rw [h.preInitIntercepted_of_isAwaiting (isAwaiting_of_canFail hcan)] at hset
          cases hset
      | outbound =>
          exact h.finishOutbound hnone (fun hend => absurd hend hreturned) hcompletion
      | preInit => exact h.finishPreInit hnone hfailure
  | rmcpWrites bytes hopen hnone =>
      obtain ⟨b, hb⟩ := h.follows
      refine ⟨⟨b, hb.of_eq rfl rfl rfl rfl rfl (Stdio.asked_of_eq rfl rfl)⟩,
        ?_, h.envelopes, ?_, h.cancelled⟩
      · exact h.passes.writes hopen hnone bytes
      · exact h.locked.of_eq rfl (fun v hv => hv) fun v frame hv => hv
  | rmcpCloses hopen =>
      obtain ⟨b, hb⟩ := h.follows
      refine ⟨⟨b, hb.of_eq rfl rfl rfl rfl rfl (Stdio.asked_of_eq rfl rfl)⟩,
        ?_, h.envelopes, ?_, h.cancelled⟩
      · exact h.passes.of_eq rfl rfl rfl rfl (fun hset => nomatch hset) (Stdio.asked_of_eq rfl rfl)
      · exact h.locked.of_eq rfl (fun v hv => hv) fun v frame hv => hv

/-- The abort asks, and the task ends at an await. -/
theorem Sound.abort (h : Sound codec s) : Sound codec { s with aborted := true } := by
  obtain ⟨b, hb⟩ := h.follows
  refine ⟨⟨b, hb.of_eq rfl rfl rfl rfl rfl (Stdio.asked_of_eq rfl rfl)⟩, ?_, h.envelopes, ?_, ?_⟩
  · exact h.passes.of_eq rfl rfl rfl rfl (fun hset => hset) (Stdio.asked_of_eq rfl rfl)
  · exact h.locked.of_eq rfl (fun v hv => hv) fun v frame hv => hv
  · intro v hv
    exact ⟨(h.cancelled v hv).1, rfl⟩

/-- The main task takes up the envelope. -/
theorem Sound.emit (h : Sound codec s) (hidle : s.preInit = .idle)
    {msg : InboundBridge.ClientJsonRpcMessage} {line : String}
    (hline : synthesizePreInitErrorEnvelope codec msg = some line) :
    Sound codec { s with preInit := .emitting (utf8 line) } := by
  have hwanted : s.wanted .preInit = none := by simp [Stdio.wanted, hidle]
  have hheld := h.locked.held?_eq_none hwanted
  have henvelopes := h.envelopes
  rw [Stdio.asked_of_not_wanted hwanted] at henvelopes
  have honly : MovesOnly .preInit s { s with preInit := .emitting (utf8 line) } :=
    ⟨fun _ => rfl, fun _ => rfl, fun h => absurd rfl h⟩
  obtain ⟨b, hb⟩ := h.follows
  refine ⟨⟨b, hb.of_eq rfl rfl rfl rfl rfl (Stdio.asked_of_eq rfl rfl)⟩, ?_, ?_, ?_, ?_⟩
  · exact h.passes.of_eq rfl rfl rfl rfl (fun hset => hset) (Stdio.asked_of_eq rfl rfl)
  · intro frame hframe
    have hasked : Stdio.asked { s with preInit := .emitting (utf8 line) } .preInit =
        s.stdout.framesOf .preInit ++ [utf8 line] := by
      simp [Stdio.asked, Stdio.wanted, hheld]
    rw [hasked] at hframe
    rcases List.mem_append.mp hframe with hframe | hframe
    · exact henvelopes frame hframe
    · exact ⟨msg, line, hline, List.mem_singleton.mp hframe⟩
  · exact h.locked.moves honly rfl (by simp [Stdio.completion?, hidle]) hwanted
  · exact h.cancelled_of_movesOnly honly rfl (by simp [Stdio.completion?])

theorem Sound.start : Sound codec .start where
  follows := ⟨.init, rfl, rfl, ⟨List.nil_prefix, fun _ => rfl⟩, ⟨List.nil_prefix, fun _ => rfl⟩,
    fun _ hr => Option.some.inj hr, nofun⟩
  passes := ⟨⟨List.nil_prefix, fun _ => rfl⟩, rfl, rfl, nofun, nofun⟩
  envelopes := nofun
  locked := ⟨.empty, .empty, nofun⟩
  cancelled := by
    intro w hw
    cases w <;> cases hw

/-- What has happened stays. -/
structure Later (s t : Stdio) : Prop where
  completion : ∀ w completion, s.completion? w = some completion →
    t.completion? w = some completion
  intercepted : s.preInitIntercepted = true → t.preInitIntercepted = true
  idle : t.preInit = .idle ↔ s.preInit = .idle

theorem Later.of_phases (hinbound : s'.inbound = s.inbound) (houtbound : s'.outbound = s.outbound)
    (hpreInit : s'.preInit = s.preInit)
    (hflag : s'.preInitIntercepted = s.preInitIntercepted) : Later s s' := by
  refine ⟨?_, fun hset => hflag.trans hset, by rw [hpreInit]⟩
  intro v c hc
  cases v with
  | inbound => simpa only [Stdio.completion?, hinbound] using hc
  | outbound => simpa only [Stdio.completion?, houtbound] using hc
  | preInit => simpa only [Stdio.completion?, hpreInit] using hc

/-- A writer that has not ended moves. -/
theorem Later.of_movesOnly (honly : MovesOnly w s s') (hnone : s.completion? w = none)
    (hflag : s.preInitIntercepted = true → s'.preInitIntercepted = true)
    (hidle : s'.preInit = .idle ↔ s.preInit = .idle) : Later s s' := by
  refine ⟨?_, hflag, hidle⟩
  intro v c hc
  by_cases heq : w = v
  · rw [← heq, hnone] at hc
    cases hc
  · rwa [honly.completion? heq]

theorem Later.finish (hnone : s.completion? w = none) (hidle : w = .preInit → s.preInit ≠ .idle) :
    Later s (s.finish w completion) := by
  refine ⟨?_, by cases w <;> exact fun hset => hset, ?_⟩
  swap
  · cases w with
    | inbound => exact Iff.rfl
    | outbound => exact Iff.rfl
    | preInit => exact iff_of_false nofun (hidle rfl)
  intro v c hc
  rw [Stdio.completion?_finish]
  split
  · rename_i heq
    rw [← heq, hnone] at hc
    cases hc
  · exact hc

theorem later_step {label : Label} {t : Stdio} (h : Sound codec s)
    (hstep : step codec s label = some t) : Later s t := by
  cases transition_of_step hstep with
  | readLine buf hreading hbuf =>
      refine .of_movesOnly (w := .inbound) ?_ ?_ (fun hset => hset) Iff.rfl
      · exact ⟨fun h => absurd rfl h, fun _ => rfl, fun _ => rfl⟩
      · simp [Stdio.completion?, hreading]
  | readEof hreading => exact .finish (by simp [Stdio.completion?, hreading]) nofun
  | forward buf hforwarding =>
      refine .of_movesOnly (w := .inbound) ?_ ?_ (fun hset => hset) Iff.rfl
      · exact ⟨fun h => absurd rfl h, fun _ => rfl, fun _ => rfl⟩
      · simp [Stdio.completion?, hforwarding]
  | raise hraising =>
      refine .of_movesOnly (w := .inbound) ?_ ?_ (fun _ => rfl) Iff.rfl
      · exact ⟨fun h => absurd rfl h, fun _ => rfl, fun _ => rfl⟩
      · simp [Stdio.completion?, hraising]
  | close hclosing => exact .finish (by simp [Stdio.completion?, hclosing]) nofun
  | cancel haborted hawaiting => exact .finish (completion?_of_isAwaiting hawaiting) nofun
  | takeEnd hreading hframe => exact .finish (by simp [Stdio.completion?, hreading]) nofun
  | take frame hreading hframe hnonempty =>
      refine .of_movesOnly (w := .outbound) ?_ ?_ (fun hset => hset) Iff.rfl
      · exact ⟨fun _ => rfl, fun h => absurd rfl h, fun _ => rfl⟩
      · simp [Stdio.completion?, hreading]
  | acquire w frame stdout hwanted hacquire =>
      exact .of_phases rfl rfl rfl rfl
  | write w n stdout hpush => exact .of_phases rfl rfl rfl rfl
  | flush w stdout hrelease =>
      have hnone : s.completion? w = none := by
        obtain ⟨t, hcurrent, rfl, -, -⟩ := Output.release_eq_some hrelease
        exact Stdio.completion?_of_wanted (h.locked.holder t hcurrent)
      refine .of_movesOnly (Stdio.movesOnly_flushed stdout) hnone ?_ ?_
      · intro hset
        unfold Stdio.flushed
        split
        · split <;> exact hset
        · exact hset
        · exact hset
      · cases w with
        | inbound =>
            simp only [Stdio.flushed]
            split <;> exact Iff.rfl
        | outbound => exact Iff.rfl
        | preInit =>
            refine iff_of_false nofun ?_
            intro hidle
            obtain ⟨t, hcurrent, howner, -, -⟩ := Output.release_eq_some hrelease
            have hwanted := h.locked.holder t hcurrent
            simp [howner, Stdio.wanted, hidle] at hwanted
  | fail w completion hcan hfailure =>
      refine .finish (completion?_of_canFail hcan) ?_
      rintro rfl hidle
      simp [Stdio.canFail, hidle] at hcan
  | rmcpWrites bytes hopen hnone => exact .of_phases rfl rfl rfl rfl
  | rmcpCloses hopen => exact .of_phases rfl rfl rfl rfl

theorem aborted_step {label : Label} {t : Stdio} (hstep : step codec s label = some t) :
    t.aborted = s.aborted := by
  cases transition_of_step hstep with
  | flush w stdout hrelease => exact Stdio.aborted_flushed
  | fail w completion hcan hfailure => cases w <;> rfl
  | _ => rfl

/-! ## The lines of stdout -/

theorem isLine_utf8 {text : String} (h : IsLine '\n' text.toList) : IsLine LF (utf8 text) := by
  obtain ⟨body, hbody, heq⟩ := h
  have hutf8 : utf8 text = text.toList.flatMap String.utf8EncodeChar := by
    rw [← String.ofList_toList (s := text)]
    unfold utf8
    rw [String.toUTF8, String.toByteArray_ofList, List.utf8Encode, List.data_toByteArray,
      String.toList_ofList]
  refine ⟨body.flatMap String.utf8EncodeChar, ?_, ?_⟩
  · intro hmem
    obtain ⟨c, hc, hLF⟩ := List.mem_flatMap.mp hmem
    cases hascii : AsciiBytes.isAscii c with
    | true =>
        rw [AsciiBytes.utf8EncodeChar_ascii hascii, List.mem_singleton] at hLF
        have hnat := AsciiBytes.toNat_byte hascii
        rw [← hLF] at hnat
        have hnewline : c = '\n' := Char.toNat_inj.mp hnat.symm
        exact hbody (hnewline ▸ hc)
    | false =>
        have hhigh := AsciiBytes.le_of_mem_utf8EncodeChar hascii hLF
        exact absurd hhigh (by decide)
  · rw [hutf8, heq, List.flatMap_append]
    rfl

theorem isLine_of_run (hcompact : codec.Compact) {lines : List Bytes}
    (hrun : run (InboundBridge.step codec) .init lines = some b) :
    ∀ line ∈ b.stdout, IsLine '\n' line.toList := by
  have hpres : ∀ (c : Bridge) (buf : Bytes) (d : Bridge),
      (∀ line ∈ c.stdout, IsLine '\n' line.toList) → InboundBridge.step codec c buf = some d →
        ∀ line ∈ d.stdout, IsLine '\n' line.toList := by
    intro c buf d hc hstep
    by_cases hreturned : c.returned = true
    · simp only [InboundBridge.step, hreturned, if_true, Option.some.injEq] at hstep
      rwa [← hstep]
    · have hreturned : c.returned = false := by simpa using hreturned
      obtain ⟨how, htreated⟩ := InboundBridge.treated_of_handled hcompact hreturned
        (InboundBridge.handled_of_step hreturned hstep)
      have hconcat : ∀ line : String, IsLine '\n' line.toList → d.stdout = c.stdout ++ [line] →
          ∀ l ∈ d.stdout, IsLine '\n' l.toList := by
        intro line hline heq l hl
        rw [heq] at hl
        rcases List.mem_append.mp hl with hl | hl
        · exact hc l hl
        · rw [List.mem_singleton.mp hl]
          exact hline
      cases how with
      | forwarded =>
          obtain ⟨-, hstdout, -⟩ := htreated
          rwa [hstdout]
      | skipped =>
          obtain ⟨-, -, hstdout, -⟩ := htreated
          rwa [hstdout]
      | answered =>
          obtain ⟨-, -, env, hline, hstdout⟩ := htreated
          exact hconcat _ hline hstdout
      | intercepted =>
          obtain ⟨-, -, -, hstdout | ⟨msg, line, -, hline, hstdout⟩⟩ := htreated
          · rwa [hstdout]
          · exact hconcat _ hline hstdout
  exact invariant_of_run hpres (by simp [Bridge.init]) hrun

end

end RustyImap.StdioBridges
