import RustyImap.AuditWorker

/-!
# Rotations that fail

A failed `rotate_file` (`rimap-audit/src/writer/rotation.rs`) leaves the byte counter of
the worker at the threshold, so that the next request rotates again.  A rotation begins
with a rename of the active path: it can be made again as long as that path has a file.
-/

namespace RustyImap.AuditWorker

open RustyImap.LabelledRuns RustyImap.SeparatedLines RustyImap.BufferedWriter
open RustyImap.AuditLog (Bytes LF)

/-! ## Recovery -/

/-- No system call of the request fails. -/
structure Os.Clear (os : Os) : Prop where
  rename : os.rename = none
  openFresh : os.openFresh = none
  lock : os.lock = .locked
  writes : Delivered os.writes
  sync : os.sync = none

/-- The reply is `Ok`, and the record is the last thing in the file at the active path. -/
structure Lands (cfg : Config) (w : Worker) (a : Request × Os) : Prop where
  reply : (performWrite cfg w a.1 a.2).2 = .ok ()
  active : ∃ inode, (performWrite cfg w a.1 a.2).1.disk.active = some inode ∧
    a.1.bytes <:+ (performWrite cfg w a.1 a.2).1.disk.content inode

/-- The worker once the first of the later requests have been served. -/
def afterRequests (cfg : Config) (w : Worker) (later : Nat → Request × Os) : Nat → Worker
  | 0 => w
  | n + 1 =>
      let w' := afterRequests cfg w later n
      (performWrite cfg w' (later n).1 (later n).2).1

/-- Whatever is requested once the faults have cleared, some record lands. -/
def Recovers (cfg : Config) (w : Worker) : Prop :=
  ∀ later : Nat → Request × Os, (∀ n, (later n).2.Clear) →
    ∃ n, Lands cfg (afterRequests cfg w later n) (later n)

/-- The rotation renames the active file and cannot create another. -/
def strands (cfg : Config) (s : System) (a : Request × Os) : Bool :=
  rotationDue cfg s.worker.inner && a.2.rename.isNone && a.2.openFresh.isSome

/-- There is a file to rename, and it is the worker's own unless a rotation is due. -/
def Ready (cfg : Config) (w : Worker) : Prop :=
  ∃ inode, w.disk.active = some inode ∧ (rotationDue cfg w.inner = false → inode = w.inner.file)

/-- A rotation is due, and there is no file to rename. -/
structure Stranded (cfg : Config) (w : Worker) : Prop where
  active : w.disk.active = none
  due : rotationDue cfg w.inner = true

section

variable {cfg : Config} {w w' : Worker} {req : Request} {os : Os} {calls : List SinkWrite}

/-! ## The write after the check -/

@[simp] theorem active_append (disk : Disk) (inode : Nat) (bytes : Bytes) :
    (disk.append inode bytes).active = disk.active := rfl

/-- The write keeps the worker's file and the name it has. -/
theorem appendRecord_frame (cfg : Config) (w : Worker) (req : Request) (os : Os)
    (calls : List SinkWrite) :
    (appendRecord cfg w req os calls).1.disk.active = w.disk.active ∧
      (appendRecord cfg w req os calls).1.inner.file = w.inner.file := by
  by_cases hok : (writeFlushed w.inner.buf req.bytes calls).ok = true
  · rcases hfsync : req.fsync with _ | _
    · simp [appendRecord, hok, hfsync]
    · rcases hsync : os.sync with _ | source
      · simp [appendRecord, hok, hfsync, hsync]
      · simp [appendRecord, hok, hfsync, hsync]
  · simp [appendRecord, hok]

theorem ready_appendRecord (hactive : w.disk.active = some w.inner.file) (req : Request)
    (os : Os) (calls : List SinkWrite) : Ready cfg (appendRecord cfg w req os calls).1 := by
  obtain ⟨hkept, hfile⟩ := appendRecord_frame cfg w req os calls
  refine ⟨w.inner.file, by rw [hkept, hactive], ?_⟩
  intro _
  exact hfile.symm

theorem writeFlushed_ok_of_delivered (h : Delivered calls) (buf bytes : Bytes) :
    (writeFlushed buf bytes calls).ok = true := by
  obtain ⟨hok, hrest⟩ := writeAll_of_delivered h DEFAULT_BUF_SIZE buf bytes
  unfold writeFlushed
  simp only [hok, if_true]
  exact (flushBuf_of_delivered hrest _).1

theorem appendRecord_of_delivered (h : Delivered calls) (hsync : os.sync = none)
    (cfg : Config) (w : Worker) (req : Request) :
    (appendRecord cfg w req os calls).2 = .ok () ∧
      req.bytes <:+ (appendRecord cfg w req os calls).1.disk.content w.inner.file := by
  have hok := writeFlushed_ok_of_delivered h w.inner.buf req.bytes
  obtain ⟨hout, -⟩ := writeFlushed_of_ok hok
  have hsuffix : req.bytes <:+
      (w.disk.append w.inner.file (writeFlushed w.inner.buf req.bytes calls).out).content
        w.inner.file := by
    rw [Disk.content_append_self, hout, ← List.append_assoc]
    exact List.suffix_append _ _
  rcases hfsync : req.fsync with _ | _
  · simp only [appendRecord, hok, if_true, hfsync]
    exact ⟨trivial, hsuffix⟩
  · simp only [appendRecord, hok, if_true, hfsync, hsync]
    exact ⟨trivial, hsuffix⟩

/-! ## The rotation check -/

/-- A rotation that does not strand the worker goes through to a file of its own, or
    leaves the worker as it was with a file to rename. -/
theorem checkRotation_of_ready (hready : Ready cfg w)
    (hstays : ¬ (rotationDue cfg w.inner = true ∧ os.rename = none ∧ os.openFresh ≠ none)) :
    (∃ calls, (checkRotation cfg w os).2 = .ok calls ∧
        (checkRotation cfg w os).1.disk.active = some (checkRotation cfg w os).1.inner.file) ∨
      ∃ e inode, (checkRotation cfg w os).2 = .error e ∧
        (checkRotation cfg w os).1.inner = w.inner ∧ rotationDue cfg w.inner = true ∧
        (checkRotation cfg w os).1.disk.active = some inode := by
  obtain ⟨inode, hactive, hown⟩ := hready
  unfold checkRotation
  by_cases hdue : rotationDue cfg w.inner = true
  · rw [if_pos hdue]
    unfold rotateFile
    rw [hactive]
    rcases hrename : os.rename with _ | source
    · have hopen : os.openFresh = none := by
        by_contra hne
        exact hstays ⟨hdue, hrename, hne⟩
      rw [hopen]
      rcases hlock : os.lock with _ | _ | e
      · exact .inl ⟨_, rfl, rfl⟩
      · exact .inr ⟨_, _, rfl, rfl, hdue, rfl⟩
      · exact .inr ⟨_, _, rfl, rfl, hdue, rfl⟩
    · exact .inr ⟨_, _, rfl, rfl, hdue, hactive⟩
  · rw [if_neg hdue]
    have hfile := hown (by simpa using hdue)
    exact .inl ⟨_, rfl, hfile ▸ hactive⟩

/-- Where nothing fails, the check leaves the worker with the file at the active path. -/
theorem checkRotation_of_clear (hready : Ready cfg w) (hclear : os.Clear) :
    ∃ calls, Delivered calls ∧ (checkRotation cfg w os).2 = .ok calls ∧
      (checkRotation cfg w os).1.disk.active = some (checkRotation cfg w os).1.inner.file := by
  obtain ⟨inode, hactive, hown⟩ := hready
  unfold checkRotation
  by_cases hdue : rotationDue cfg w.inner = true
  · rw [if_pos hdue]
    unfold rotateFile
    rw [hactive, hclear.rename, hclear.openFresh, hclear.lock]
    exact ⟨_, (flushBuf_of_delivered hclear.writes w.inner.buf).2, rfl, rfl⟩
  · rw [if_neg hdue]
    have hfile := hown (by simpa using hdue)
    exact ⟨_, hclear.writes, rfl, hfile ▸ hactive⟩

theorem performWrite_of_checked {calls : List SinkWrite}
    (h : (checkRotation cfg w os).2 = .ok calls) :
    performWrite cfg w req os = appendRecord cfg (checkRotation cfg w os).1 req os calls := by
  unfold performWrite
  rcases hcheck : checkRotation cfg w os with ⟨w', _ | _⟩
  · rw [hcheck] at h
    cases h
  · rw [hcheck] at h
    cases h
    rfl

theorem performWrite_of_refused {e : AuditError}
    (h : (checkRotation cfg w os).2 = .error e) :
    performWrite cfg w req os = ((checkRotation cfg w os).1, .error e) := by
  unfold performWrite
  rcases hcheck : checkRotation cfg w os with ⟨w', _ | _⟩
  · rw [hcheck] at h
    cases h
    rfl
  · rw [hcheck] at h
    cases h

/-! ## What a request leaves behind -/

/-- **A ready worker serves the next request** once the faults have cleared. -/
theorem lands_of_ready (hready : Ready cfg w) {a : Request × Os} (hclear : a.2.Clear) :
    Lands cfg w a := by
  obtain ⟨calls, hcalls, hok, hactive⟩ := checkRotation_of_clear hready hclear
  have hwrite : performWrite cfg w a.1 a.2 =
      appendRecord cfg (checkRotation cfg w a.2).1 a.1 a.2 calls := performWrite_of_checked hok
  obtain ⟨hreply, hsuffix⟩ := appendRecord_of_delivered hcalls hclear.sync cfg
    (checkRotation cfg w a.2).1 a.1
  constructor
  · rw [hwrite, hreply]
  · rw [hwrite]
    refine ⟨_, ?_, hsuffix⟩
    rw [(appendRecord_frame _ _ _ _ _).1, hactive]

theorem ready_performWrite (hready : Ready cfg w)
    (hstays : ¬ (rotationDue cfg w.inner = true ∧ os.rename = none ∧ os.openFresh ≠ none))
    (req : Request) : Ready cfg (performWrite cfg w req os).1 := by
  rcases checkRotation_of_ready hready hstays with
    ⟨calls, hok, hactive⟩ | ⟨e, inode, herror, hinner, hdue, hactive⟩
  · rw [performWrite_of_checked hok]
    exact ready_appendRecord hactive req os calls
  · rw [performWrite_of_refused herror]
    refine ⟨inode, hactive, ?_⟩
    intro hnot
    rw [hinner, hdue] at hnot
    cases hnot

theorem stranded_performWrite (hready : Ready cfg w) (hdue : rotationDue cfg w.inner = true)
    (hrename : os.rename = none) {source : String} (hopen : os.openFresh = some source)
    (req : Request) : Stranded cfg (performWrite cfg w req os).1 := by
  obtain ⟨inode, hactive, -⟩ := hready
  have hcheck : (checkRotation cfg w os).2 =
        .error (.rotate cfg.path ("open fresh file: " ++ source)) ∧
      (checkRotation cfg w os).1.disk.active = none ∧
      (checkRotation cfg w os).1.inner = w.inner := by
    unfold checkRotation
    rw [if_pos hdue]
    unfold rotateFile
    rw [hactive, hrename, hopen]
    exact ⟨rfl, rfl, rfl⟩
  rw [performWrite_of_refused hcheck.1]
  exact ⟨hcheck.2.1, by rw [hcheck.2.2, hdue]⟩

/-- **A stranded worker refuses every request**, whatever the system calls do. -/
theorem performWrite_of_stranded (h : Stranded cfg w) (req : Request) (os : Os) :
    (∃ e, (performWrite cfg w req os).2 = .error e) ∧
      Stranded cfg (performWrite cfg w req os).1 := by
  obtain ⟨e, hcheck⟩ : ∃ e, checkRotation cfg w os = (w, .error e) := by
    unfold checkRotation
    rw [if_pos h.due]
    unfold rotateFile
    rw [h.active]
    exact ⟨_, rfl⟩
  have hwrite : performWrite cfg w req os = ((checkRotation cfg w os).1, .error e) :=
    performWrite_of_refused (by rw [hcheck])
  rw [hwrite, hcheck]
  exact ⟨⟨e, rfl⟩, h⟩

/-! ## Runs -/

theorem stranded_afterRequests (h : Stranded cfg w) (later : Nat → Request × Os) (n : Nat) :
    Stranded cfg (afterRequests cfg w later n) := by
  induction n with
  | zero => exact h
  | succ n ih => exact (performWrite_of_stranded ih _ _).2

theorem recovers_of_ready (hready : Ready cfg w) : Recovers cfg w := by
  intro later hclear
  exact ⟨0, lands_of_ready hready (hclear 0)⟩

theorem osWith_clear : (osWith []).Clear := by
  refine ⟨rfl, rfl, rfl, ?_, rfl⟩
  intro call hcall
  cases hcall

theorem not_recovers_of_stranded (h : Stranded cfg w) : ¬ Recovers cfg w := by
  intro hrecovers
  obtain ⟨n, hlands⟩ := hrecovers (fun _ => (.ofText [] (by simp), osWith []))
    fun _ => osWith_clear
  obtain ⟨⟨e, he⟩, -⟩ := performWrite_of_stranded (stranded_afterRequests h _ n)
    (.ofText [] (by simp)) (osWith [])
  have hreply := hlands.reply
  rw [he] at hreply
  cases hreply

end

/-- **Rotation is retryable exactly where no rotation strands the worker**: after any run
    of requests and faults, a later record lands once the faults have cleared, unless a
    rotation of the run has renamed the active file and not created another. -/
theorem recovers_iff_not_strands (cfg : Config) (disk : Disk) (file : Nat)
    (hactive : disk.active = some file) (labels : List (Request × Os)) (s : System)
    (hrun : run (step cfg) (.opened disk file) labels = some s) :
    Recovers cfg s.worker ↔
      AllSteps (step cfg) (fun s a => strands cfg s a = false) (.opened disk file) labels := by
  have hopened : Ready cfg (System.opened disk file).worker := ⟨file, hactive, fun _ => rfl⟩
  have hgood : ∀ (s : System) (a : Request × Os) (t : System), Ready cfg s.worker →
      strands cfg s a = false → step cfg s a = some t → Ready cfg t.worker := by
    intro s a t hready hstays hstep
    cases hstep
    apply ready_performWrite hready
    rintro ⟨hdue, hrename, hopen⟩
    obtain ⟨source, hsource⟩ := Option.ne_none_iff_exists'.mp hopen
    simp [strands, hdue, hrename, hsource] at hstays
  have hspoil : ∀ (s : System) (a : Request × Os) (t : System), Ready cfg s.worker →
      ¬ strands cfg s a = false → step cfg s a = some t → Stranded cfg t.worker := by
    intro s a t hready hstrands hstep
    cases hstep
    simp only [strands, Bool.not_eq_false, Bool.and_eq_true, Option.isNone_iff_eq_none] at hstrands
    obtain ⟨⟨hdue, hrename⟩, hopen⟩ := hstrands
    obtain ⟨source, hsource⟩ := Option.isSome_iff_exists.mp hopen
    exact stranded_performWrite hready hdue hrename hsource a.1
  have hbad : ∀ (s : System) (a : Request × Os) (t : System), Stranded cfg s.worker →
      step cfg s a = some t → Stranded cfg t.worker := by
    intro s a t h hstep
    cases hstep
    exact (performWrite_of_stranded h a.1 a.2).2
  rcases good_or_bad_of_run hgood hspoil hbad hopened hrun with ⟨hall, hready⟩ | ⟨hnot, hstranded⟩
  · exact ⟨fun _ => hall, fun _ => recovers_of_ready hready⟩
  · exact ⟨fun h => absurd h (not_recovers_of_stranded hstranded), fun h => absurd h hnot⟩

/-- A record, a rotation that is refused its lock and one that is refused its rename. -/
def refusedRotations : List (Request × Os) :=
  [(.ofText [97] (by decide), osWith []),
   (.ofText [98] (by decide), { osWith [] with lock := .wouldBlock }),
   (.ofText [99] (by decide), { osWith [] with rename := some "Permission denied" })]

theorem recovers_refusedRotations :
    ∃ s, run (step ⟨"audit.jsonl", 2⟩) (.opened emptyDisk 0) refusedRotations = some s ∧
      s.served.map acknowledged = [true, false, false] ∧ Recovers ⟨"audit.jsonl", 2⟩ s.worker := by
  refine ⟨_, rfl, by decide +kernel, ?_⟩
  exact (recovers_iff_not_strands ⟨"audit.jsonl", 2⟩ emptyDisk 0 rfl refusedRotations _ rfl).mpr
    (by decide +kernel)

/-- A record, and a rotation whose fresh file is refused. -/
def strandedRotation : List (Request × Os) :=
  [(.ofText [97] (by decide), osWith []),
   (.ofText [98] (by decide), { osWith [] with openFresh := some "No space left on device" })]

theorem not_recovers_strandedRotation :
    ∃ s, run (step ⟨"audit.jsonl", 2⟩) (.opened emptyDisk 0) strandedRotation = some s ∧
      s.served.map acknowledged = [true, false] ∧ ¬ Recovers ⟨"audit.jsonl", 2⟩ s.worker := by
  refine ⟨_, rfl, by decide +kernel, ?_⟩
  exact not_recovers_of_stranded ⟨by decide +kernel, by decide +kernel⟩

end RustyImap.AuditWorker
