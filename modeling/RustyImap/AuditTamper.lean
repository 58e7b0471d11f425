import RustyImap.AuditSequence

/-!
# The tamper signal over restarts and rotations

`AuditWriter::log_process_start` (`rimap-audit/src/writer/log.rs`) in the boot
sequence of `init_audit_writer_multi` (`rimap-server/src/boot/audit_init.rs`), over
the life of one audit path with the inodes of the files it has named.

A boot scans the path, opens it, samples the inode of what it opened and writes
`process_start`.  The scan takes no lock, so it is a step of its own: another
process may hold the path between a scan and the open that follows it.  Each file
is created with an inode that no earlier file had.  Nobody but these processes
touches the files, and a run ends between two writes (`Label.stop`).
-/

namespace RustyImap.AuditTamper

open RustyImap.LabelledRuns RustyImap.SeparatedLines RustyImap.AuditLog
open RustyImap.AuditSequence (initialSeq)

variable {ε : Type}

/-- The fields of a payload beside those of `Payload` itself: of a
    `process_start` those that the boot derives, the rest is any data. -/
inductive Fields (ε : Type) where
  | start (previousLastSeq : Option Seq) (previousProcessId : Option ProcessId)
      (auditFileInodeChanged : Bool) (rest : ε)
  | other (rest : ε)
deriving DecidableEq, Repr

abbrev Record (ε : Type) := AuditRecord (Fields ε)

/-- A `process_start` record with `audit_file_inode_changed = true`. -/
def raisesAlarm (record : Record ε) : Bool :=
  match record.payload with
  | .processStart _ (.start _ _ changed _) => changed
  | _ => false

structure File where
  inode : UInt64
  bytes : Bytes
deriving DecidableEq, Repr

/-- The two `ProcessStartInputs` that the tamper signal is computed from. -/
structure Boot where
  trailing : TrailingState
  currentInode : UInt64
deriving DecidableEq, Repr

structure Writer where
  processId : ProcessId
  rotateBytes : Nat
  nextSeq : Seq
  pending : List Seq         -- allocated, not yet written
  boot : Option Boot         -- until `process_start` is written
deriving DecidableEq, Repr

/-- `allocate_seq`. -/
def Writer.allocate (w : Writer) : Writer :=
  { w with nextSeq := w.nextSeq + 1, pending := w.pending ++ [w.nextSeq] }

/-- The caller of the `i`-th pending number has come back from its write. -/
def Writer.finish (w : Writer) (i : Nat) : Writer :=
  { w with pending := w.pending.eraseIdx i }

/-- The writer that the boot hands out. -/
def Writer.booted (w : Writer) : Writer := { w with nextSeq := w.nextSeq + 1, boot := none }

structure State where
  file : Option File         -- the active file, once it exists
  used : List UInt64         -- the inodes of all files the path has named
  booting : List TrailingState   -- scans whose process has not opened the path yet
  writer : Option Writer     -- the process that holds the lock
deriving DecidableEq, Repr

namespace State

def init : State := ⟨none, [], [], none⟩

def bytes (s : State) : Bytes := (s.file.map File.bytes).getD []

end State

/-- `log_process_start`. -/
def processStart (w : Writer) (boot : Boot) (ts : Int) (rest : ε) : Record ε where
  seq := w.nextSeq
  ts := ts
  processId := w.processId
  payload := .processStart boot.currentInode <| .start boot.trailing.lastSeq
    boot.trailing.lastProcessId
    (boot.trailing.lastRecordedInode.any fun prior => prior != boot.currentInode) rest

def rotationDue (w : Writer) (file : File) : Bool :=
  0 < w.rotateBytes && w.rotateBytes ≤ file.bytes.length

/-- `perform_write`; `inode` is that of the file a rotation creates. -/
def performWrite (s : State) (w : Writer) (file : File) (line : Bytes) (inode : UInt64) :
    Option State :=
  if rotationDue w file then
    if inode ∈ s.used then none
    else some { s with
      file := some ⟨inode, line⟩, used := inode :: s.used, writer := some w }
  else some { s with
    file := some { file with bytes := file.bytes ++ line }, writer := some w }

inductive Label (ε : Type) where
  | scan
  | open (i : Nat) (processId : ProcessId) (rotateBytes : Nat) (inode : UInt64)
  | writeStart (ts : Int) (rest : ε) (inode : UInt64)
  | allocate
  | write (i : Nat) (ts : Int) (payload : Payload (Fields ε)) (inode : UInt64)
  | stop
deriving DecidableEq, Repr

def step (json : SerdeJson (Fields ε)) (path : String) (s : State) : Label ε → Option State
  | .scan =>
      match readTrailingState json path (s.file.map File.bytes) with
      | .ok trailing => some { s with booting := s.booting ++ [trailing] }
      | .error _ => none
  | .open i processId rotateBytes inode =>
      match s.writer, s.booting[i]? with
      | none, some trailing =>
          let opened (file : File) : State := { s with
            file := some file
            booting := s.booting.eraseIdx i
            writer := some ⟨processId, rotateBytes, initialSeq trailing, [],
              some ⟨trailing, file.inode⟩⟩ }
          match s.file with
          | some file => some (opened file)
          | none =>
              if inode ∈ s.used then none
              else some { opened ⟨inode, []⟩ with used := inode :: s.used }
      | _, _ => none
  | .writeStart ts rest inode =>
      match s.writer, s.file with
      | some w, some file =>
          match w.boot with
          | some boot =>
              match json.toVec (processStart w boot ts rest) with
              | some text =>
                  performWrite s w.booted file (text ++ [LF]) inode
              | none => none
          | none => none
      | _, _ => none
  | .allocate =>
      match s.writer with
      | some w =>
          -- the writer is handed out after the boot
          if w.boot = none then some { s with writer := some w.allocate } else none
      | none => none
  | .write i ts payload inode =>
      match s.writer, s.file with
      | some w, some file =>
          match w.pending[i]? with
          | some seq =>
              -- only the boot logs a `process_start`
              if payload.kind = Kind.PROCESS_START then none
              else
                match json.toVec ⟨seq, ts, w.processId, payload⟩ with
                | some text => performWrite s (w.finish i) file (text ++ [LF]) inode
                | none => some { s with writer := some (w.finish i) }
          | none => none
      | _, _ => none
  | .stop =>
      match s.writer with
      | some _ => some { s with writer := none }
      | none => none

/-! ## Everything a step can do -/

inductive Transition (json : SerdeJson (Fields ε)) (path : String) (s : State) :
    Label ε → State → Prop where
  | scan (trailing : TrailingState)
      (hread : readTrailingState json path (s.file.map File.bytes) = .ok trailing) :
      Transition json path s .scan { s with booting := s.booting ++ [trailing] }
  | open (i : Nat) (processId : ProcessId) (rotateBytes : Nat) (inode : UInt64)
      (trailing : TrailingState) (file : File) (used : List UInt64)
      (hscan : s.booting[i]? = some trailing)
      (hfile : s.file = some file ∨ s.file = none ∧ file = ⟨inode, []⟩) :
      Transition json path s (.open i processId rotateBytes inode)
        ⟨some file, used, s.booting.eraseIdx i, some ⟨processId, rotateBytes,
          initialSeq trailing, [], some ⟨trailing, file.inode⟩⟩⟩
  | writeStart (ts : Int) (rest : ε) (inode : UInt64) (w : Writer) (file : File) (boot : Boot)
      (text : Bytes) (t : State) (hw : s.writer = some w) (hfile : s.file = some file)
      (hboot : w.boot = some boot) (htext : json.toVec (processStart w boot ts rest) = some text)
      (hwrite : performWrite s w.booted file (text ++ [LF]) inode = some t) :
      Transition json path s (.writeStart ts rest inode) t
  | allocate (w : Writer) (hw : s.writer = some w) (hboot : w.boot = none) :
      Transition json path s .allocate { s with writer := some w.allocate }
  | write (i : Nat) (ts : Int) (payload : Payload (Fields ε)) (inode : UInt64) (w : Writer)
      (file : File) (seq : Seq) (text : Bytes) (t : State) (hw : s.writer = some w)
      (hfile : s.file = some file) (hseq : w.pending[i]? = some seq)
      (hkind : payload.kind ≠ Kind.PROCESS_START)
      (htext : json.toVec ⟨seq, ts, w.processId, payload⟩ = some text)
      (hwrite : performWrite s (w.finish i) file (text ++ [LF]) inode = some t) :
      Transition json path s (.write i ts payload inode) t
  | unserialised (i : Nat) (ts : Int) (payload : Payload (Fields ε)) (inode : UInt64) (w : Writer)
      (hw : s.writer = some w) :
      Transition json path s (.write i ts payload inode)
        { s with writer := some (w.finish i) }
  | stop : Transition json path s .stop { s with writer := none }

variable {json : SerdeJson (Fields ε)} {path : String}

theorem transition_of_step {s t : State} {a : Label ε} (h : step json path s a = some t) :
    Transition json path s a t := by
  cases a with
  | scan =>
      simp only [step] at h
      split at h
      · rename_i trailing hread
        cases h
        exact .scan trailing hread
      · cases h
  | «open» i processId rotateBytes inode =>
      simp only [step] at h
      split at h
      · rename_i trailing hidle hscan
        split at h
        · rename_i file hfile
          cases h
          exact .open i processId rotateBytes inode trailing file s.used hscan (.inl hfile)
        · rename_i hfile
          split at h
          · cases h
          · cases h
            exact .open i processId rotateBytes inode trailing ⟨inode, []⟩ _ hscan
              (.inr ⟨hfile, rfl⟩)
      · cases h
  | writeStart ts rest inode =>
      simp only [step] at h
      split at h
      · rename_i w file hw hfile
        split at h
        · rename_i boot hboot
          split at h
          · rename_i text htext
            exact .writeStart ts rest inode w file boot text t hw hfile hboot htext h
          · cases h
        · cases h
      · cases h
  | allocate =>
      simp only [step] at h
      split at h
      · rename_i w hw
        split at h
        · rename_i hboot
          cases h
          exact .allocate w hw hboot
        · cases h
      · cases h
  | write i ts payload inode =>
      simp only [step] at h
      split at h
      · rename_i w file hw hfile
        split at h
        · rename_i seq hseq
          split at h
          · cases h
          · rename_i hkind
            split at h
            · rename_i text htext
              exact .write i ts payload inode w file seq text t hw hfile hseq hkind htext h
            · cases h
              exact .unserialised i ts payload inode w hw
        · cases h
      · cases h
  | stop =>
      simp only [step] at h
      split at h
      · cases h
        exact .stop
      · cases h

/-- The line goes to the active file, or starts a new one. -/
theorem performWrite_cases {s t : State} {w : Writer} {file : File} {line : Bytes} {inode : UInt64}
    (h : performWrite s w file line inode = some t) :
    t.writer = some w ∧ t.booting = s.booting ∧
      (rotationDue w file = false ∧ t.file = some { file with bytes := file.bytes ++ line } ∨
        rotationDue w file = true ∧ t.file = some ⟨inode, line⟩) := by
  unfold performWrite at h
  split at h
  · rename_i hdue
    split at h
    · cases h
    · cases h
      exact ⟨rfl, rfl, .inr ⟨hdue, rfl⟩⟩
  · rename_i hdue
    cases h
    exact ⟨rfl, rfl, .inl ⟨by simpa using hdue, rfl⟩⟩

/-! ## The invariant -/

/-- The record raises no alarm, and a `process_start` names the file it lies in. -/
def Faithful (inode : UInt64) (record : Record ε) : Prop :=
  raisesAlarm record = false ∧
    ∀ recorded, record.tailEnvelope.previousFileInode = some recorded → recorded = inode

/-- What the active file holds, and what a boot has seen of it. -/
structure Inv (json : SerdeJson (Fields ε)) (s : State) : Prop where
  content : ∀ file, s.file = some file → ∃ log : List (Written json),
    file.bytes = logBytes log ∧ ∀ w ∈ log, Faithful file.inode w.record
  boot : ∀ w, s.writer = some w → ∀ boot, w.boot = some boot → w.pending = [] ∧
    ∃ file, s.file = some file ∧ boot.currentInode = file.inode ∧
      ∀ recorded, boot.trailing.lastRecordedInode = some recorded → recorded = file.inode

theorem inv_init : Inv json .init := ⟨nofun, nofun⟩

/-- The scan reports an inode that some `process_start` of the file has recorded. -/
theorem absorbLog_inode {log : List (Written json)} {inode : UInt64}
    (hlog : ∀ w ∈ log, Faithful inode w.record) {recorded : UInt64}
    (h : (TrailingState.absorbLog {} log).lastRecordedInode = some recorded) :
    recorded = inode := by
  induction log using List.reverseRecOn with
  | nil => cases h
  | append_singleton log w ih =>
      have hfront : ∀ v ∈ log, Faithful inode v.record := fun v hv => hlog v (by simp [hv])
      have hw := hlog w (by simp)
      rw [TrailingState.absorbLog_concat] at h
      split at h
      · simp only [TrailingState.absorb] at h
        split at h
        · exact hw.2 recorded h
        · exact ih hfront h
      · exact ih hfront h

theorem exists_readTrailingState (hjson : json.Lawful) (path : String)
    (log : List (Written json)) :
    ∃ trailing, readTrailingState json path (some (logBytes log)) = .ok trailing := by
  have hscan := readTrailingState_torn hjson path log [] (by simp)
  rw [List.append_nil, if_pos (show validUtf8 [] = true by decide +kernel)] at hscan
  rw [hscan]
  split
  · exact ⟨_, rfl⟩
  · exact ⟨_, rfl⟩

theorem readTrailingState_inode (hjson : json.Lawful) {log : List (Written json)} {inode : UInt64}
    (hlog : ∀ w ∈ log, Faithful inode w.record) {trailing : TrailingState}
    (hread : readTrailingState json path (some (logBytes log)) = .ok trailing) {recorded : UInt64}
    (h : trailing.lastRecordedInode = some recorded) : recorded = inode := by
  have hscan := readTrailingState_torn hjson path log [] (by simp)
  rw [List.append_nil, hread] at hscan
  split at hscan
  · cases hscan
    cases h
  · rw [if_pos (by decide +kernel)] at hscan
    cases hscan
    exact absorbLog_inode hlog h

/-- The boot write finds room in the file whose inode was sampled, and a process
    opens the path in the state it has scanned. -/
def bootUndisturbed (json : SerdeJson (Fields ε)) (path : String) (s : State) : Label ε → Bool
  | .open i _ _ _ =>
      match s.booting[i]?, readTrailingState json path (s.file.map File.bytes) with
      | some trailing, .ok now => trailing == now
      | _, _ => true
  | .writeStart .. =>
      match s.writer, s.file with
      | some w, some file => !rotationDue w file
      | _, _ => true
  | .scan | .allocate | .write .. | .stop => true

/-- A process that opens the path right after its scan has seen what it opens. -/
theorem bootUndisturbed_scan {s t : State} (h : step json path s .scan = some t)
    (processId : ProcessId) (rotateBytes : Nat) (inode : UInt64) :
    bootUndisturbed json path t (.open s.booting.length processId rotateBytes inode) = true := by
  simp only [step] at h
  split at h
  · rename_i trailing hread
    cases h
    simp [bootUndisturbed, hread]
  · cases h

/-- A line that is faithful to the file it goes to keeps the file faithful. -/
theorem content_performWrite {s t : State} {w : Writer} {file : File} {inode : UInt64}
    (new : Written json)
    (hfile : ∃ log : List (Written json), file.bytes = logBytes log ∧
      ∀ v ∈ log, Faithful file.inode v.record)
    (hwrite : performWrite s w file new.line inode = some t)
    (hsame : rotationDue w file = false → Faithful file.inode new.record)
    (hfresh : rotationDue w file = true → Faithful inode new.record) :
    ∀ file', t.file = some file' → ∃ log : List (Written json),
      file'.bytes = logBytes log ∧ ∀ v ∈ log, Faithful file'.inode v.record := by
  have hline : logBytes [new] = new.line := by simp [logBytes]
  obtain ⟨-, -, hcases⟩ := performWrite_cases hwrite
  intro file' hfile'
  rcases hcases with ⟨hdue, ht⟩ | ⟨hdue, ht⟩
  · rw [ht] at hfile'
    cases hfile'
    obtain ⟨log, hbytes, hlog⟩ := hfile
    refine ⟨log ++ [new], by rw [logBytes_append, hline, ← hbytes], ?_⟩
    intro v hv
    rcases List.mem_append.mp hv with hv | hv
    · exact hlog v hv
    · rw [List.mem_singleton.mp hv]
      exact hsame hdue
  · rw [ht] at hfile'
    cases hfile'
    refine ⟨[new], hline.symm, ?_⟩
    intro v hv
    rw [List.mem_singleton.mp hv]
    exact hfresh hdue

theorem faithful_of_kind {record : Record ε} (hkind : record.payload.kind ≠ Kind.PROCESS_START)
    (inode : UInt64) : Faithful inode record := by
  obtain ⟨seq, ts, processId, payload⟩ := record
  cases payload with
  | processStart recorded fields => exact absurd rfl hkind
  | _ => exact ⟨rfl, nofun⟩

theorem faithful_processStart {w : Writer} {boot : Boot} {file : File}
    (hinode : boot.currentInode = file.inode)
    (hrecorded : ∀ recorded, boot.trailing.lastRecordedInode = some recorded →
      recorded = file.inode) (ts : Int) (rest : ε) :
    Faithful file.inode (processStart w boot ts rest) := by
  constructor
  · cases hlast : boot.trailing.lastRecordedInode with
    | none => simp [raisesAlarm, processStart, hlast]
    | some recorded => simp [raisesAlarm, processStart, hlast, hrecorded recorded hlast, hinode]
  · rintro recorded ⟨rfl⟩
    exact hinode

theorem inv_step (hjson : json.Lawful) (s : State) (a : Label ε) (t : State) (h : Inv json s)
    (hok : bootUndisturbed json path s a) (hstep : step json path s a = some t) :
    Inv json t := by
  cases transition_of_step hstep with
  | scan trailing hread => exact ⟨h.content, h.boot⟩
  | «open» i processId rotateBytes inode trailing file used hscan hfile =>
      have hcontent : ∃ log : List (Written json), file.bytes = logBytes log ∧
          ∀ w ∈ log, Faithful file.inode w.record := by
        rcases hfile with hfile | ⟨-, rfl⟩
        · exact h.content file hfile
        · refine ⟨[], rfl, ?_⟩
          intro w hw
          cases hw
      refine ⟨?_, ?_⟩
      · rintro _ ⟨rfl⟩
        exact hcontent
      · rintro _ ⟨rfl⟩ _ ⟨rfl⟩
        refine ⟨rfl, file, rfl, rfl, ?_⟩
        intro recorded hrecorded
        obtain ⟨log, hbytes, hlog⟩ := hcontent
        have hnow : (s.file.map File.bytes).getD [] = logBytes log := by
          rcases hfile with hfile | ⟨hfile, rfl⟩
          · rw [hfile]
            exact hbytes
          · rw [hfile]
            exact hbytes
        obtain ⟨now, hread⟩ := exists_readTrailingState hjson path log
        -- the scan is still what the file says
        have hsame : trailing = now := by
          simpa [bootUndisturbed, hscan, readTrailingState_getD json path (s.file.map File.bytes),
            hnow, hread] using hok
        rw [hsame] at hrecorded
        exact readTrailingState_inode hjson hlog hread hrecorded
  | writeStart ts rest inode w file boot text _ hw hfile hboot htext hwrite =>
      have hroom : rotationDue w file = false := by
        simpa [bootUndisturbed, hw, hfile] using hok
      obtain ⟨-, file', hfile', hinode, hrecorded⟩ := h.boot w hw boot hboot
      rw [hfile] at hfile'
      cases hfile'
      let new : Written json := ⟨processStart w boot ts rest, text, htext⟩
      refine ⟨content_performWrite new (h.content file hfile) hwrite ?_ ?_, ?_⟩
      · intro _
        exact faithful_processStart hinode hrecorded ts rest
      · intro hdue
        rw [show rotationDue w.booted file = rotationDue w file from rfl, hroom] at hdue
        cases hdue
      · obtain ⟨hwriter, -, -⟩ := performWrite_cases hwrite
        rw [hwriter]
        rintro _ ⟨rfl⟩ boot' hboot'
        cases hboot'
  | allocate w hw hboot =>
      refine ⟨h.content, ?_⟩
      rintro _ ⟨rfl⟩ boot hboot'
      rw [show w.allocate.boot = w.boot from rfl, hboot] at hboot'
      cases hboot'
  | write i ts payload inode w file seq text _ hw hfile hseq hkind htext hwrite =>
      let new : Written json := ⟨⟨seq, ts, w.processId, payload⟩, text, htext⟩
      have hnew (inode : UInt64) : Faithful inode new.record := faithful_of_kind hkind inode
      refine ⟨content_performWrite new (h.content file hfile) hwrite (fun _ => hnew _)
        fun _ => hnew _, ?_⟩
      obtain ⟨hwriter, -, -⟩ := performWrite_cases hwrite
      rw [hwriter]
      rintro _ ⟨rfl⟩ boot hboot
      obtain ⟨hpending, -⟩ := h.boot w hw boot hboot
      rw [hpending] at hseq
      cases hseq
  | unserialised i ts payload inode w hw =>
      refine ⟨h.content, ?_⟩
      rintro _ ⟨rfl⟩ boot hboot
      obtain ⟨hpending, hfile⟩ := h.boot w hw boot hboot
      exact ⟨by simp [Writer.finish, hpending], hfile⟩
  | stop => exact ⟨h.content, nofun⟩

/-! ## Where the signal goes wrong

A boot write that rotates records the inode of the file it has left behind, so
the next boot finds a `process_start` that names another file. -/

/-- The scan of a log within the caps. -/
theorem step_scan (hjson : json.Lawful) {s : State} {file : File} {log : List (Written json)}
    (hfile : s.file = some file) (hbytes : file.bytes = logBytes log)
    (hsize : (logBytes log).length ≤ MAX_SELF_CHECK_BYTES) :
    step json path s .scan =
      some { s with booting := s.booting ++ [TrailingState.absorbLog {} log] } := by
  have hscan := readTrailingState_torn hjson path log [] (by simp)
  rw [List.append_nil, if_neg (by omega), if_pos (by decide +kernel)] at hscan
  simp only [step, hfile, Option.map_some, hbytes, hscan]

theorem raisesAlarm_processStart {w : Writer} {boot : Boot} {old : UInt64}
    (hlast : boot.trailing.lastRecordedInode = some old) (hne : old ≠ boot.currentInode)
    (ts : Int) (rest : ε) : raisesAlarm (processStart w boot ts rest) = true := by
  simp [raisesAlarm, processStart, hlast, hne]

/-- A written record is in the active file, rotated or not. -/
theorem exists_performWrite (hjson : json.Lawful) (s : State) (w : Writer) (file : File)
    {log : List (Written json)} (hbytes : file.bytes = logBytes log) {fresh : UInt64}
    (hfresh : fresh ∉ s.used) (new : Written json) :
    ∃ t, performWrite s w file new.line fresh = some t ∧
      new.record ∈ completeRecords json t.bytes := by
  by_cases hdue : rotationDue w file = true
  · refine ⟨{ s with
      file := some ⟨fresh, new.line⟩, used := fresh :: s.used, writer := some w }, ?_, ?_⟩
    · simp [performWrite, hdue, hfresh]
    · have hline : logBytes [new] = new.line := by simp [logBytes]
      change new.record ∈ completeRecords json new.line
      rw [← hline, completeRecords_logBytes hjson]
      exact List.mem_singleton.mpr rfl
  · refine ⟨{ s with
      file := some { file with bytes := file.bytes ++ new.line }, writer := some w }, ?_, ?_⟩
    · simp [performWrite, hdue]
    · have hline : logBytes (log ++ [new]) = file.bytes ++ new.line := by
        rw [logBytes_append, hbytes]
        simp [logBytes]
      change new.record ∈ completeRecords json (file.bytes ++ new.line)
      rw [← hline, completeRecords_logBytes hjson]
      simp [records]

/-- **A rotated boot write makes the next boot raise the alarm.** -/
theorem alarm_after_rotated_boot (hjson : json.Lawful) (path : String) (s : State)
    (start new : Written json) {inode fresh old : UInt64} {fields : Fields ε}
    (hfile : s.file = some ⟨inode, start.line⟩) (hidle : s.writer = none)
    (hbooting : s.booting = []) (hstart : start.record.payload = .processStart old fields)
    (hne : old ≠ inode) (hfits : start.line.length ≤ MAX_LINE_BYTES) (hfresh : fresh ∉ s.used)
    (processId : ProcessId) (rotateBytes : Nat) (ts : Int) (rest : ε)
    (hnew : new.record = processStart
      ⟨processId, rotateBytes, Seq.next start.record.seq, [],
        some ⟨TrailingState.absorbLog {} [start], inode⟩⟩
      ⟨TrailingState.absorbLog {} [start], inode⟩ ts rest) :
    ∃ t, run (step json path) s
        [.scan, .open 0 processId rotateBytes fresh, .writeStart ts rest fresh] = some t ∧
      new.record ∈ completeRecords json t.bytes ∧ raisesAlarm new.record = true := by
  have hline : logBytes [start] = start.line := by simp [logBytes]
  have htrailing : TrailingState.absorbLog {} [start] =
      TrailingState.absorb {} start.record.tailEnvelope := by
    simp [TrailingState.absorbLog, hfits]
  have hscan : step json path s .scan =
      some { s with booting := [TrailingState.absorbLog {} [start]] } := by
    have hsize : (logBytes [start]).length ≤ MAX_SELF_CHECK_BYTES := by
      rw [hline]
      exact hfits.trans (by decide)
    rw [step_scan hjson hfile hline.symm hsize, hbooting]
    rfl
  let w : Writer := ⟨processId, rotateBytes, Seq.next start.record.seq, [],
    some ⟨TrailingState.absorbLog {} [start], inode⟩⟩
  have hopen : step json path { s with booting := [TrailingState.absorbLog {} [start]] }
      (.open 0 processId rotateBytes fresh) = some { s with booting := [], writer := some w } := by
    simp [step, hidle, hfile, w, htrailing, TrailingState.absorb, AuditRecord.tailEnvelope,
      initialSeq]
  have hlast : (TrailingState.absorbLog {} [start]).lastRecordedInode = some old := by
    rw [htrailing]
    simp [TrailingState.absorb, AuditRecord.tailEnvelope, hstart, Payload.kind]
  have htext : json.toVec (processStart w ⟨TrailingState.absorbLog {} [start], inode⟩ ts rest) =
      some new.text := by
    rw [← hnew]
    exact new.toVec_eq
  have hwrite : step json path { s with booting := [], writer := some w }
      (.writeStart ts rest fresh) =
        performWrite { s with booting := [], writer := some w } w.booted ⟨inode, start.line⟩
          new.line fresh := by
    simp only [step, hfile, w, htext, Written.line]
  obtain ⟨t, ht, hmem⟩ := exists_performWrite hjson { s with booting := [], writer := some w }
    w.booted ⟨inode, start.line⟩ hline.symm hfresh new
  refine ⟨t, ?_, hmem, ?_⟩
  · simp only [run_cons, hscan, Option.bind_some, hopen, hwrite, ht, run_nil]
  · rw [hnew]
    exact raisesAlarm_processStart hlast hne ts rest

/-- **No false alarm.**  In every history in which the boot writes find room in
    the file they have sampled, and each process opens the path as it has scanned
    it, no `process_start` record says that the inode has changed. -/
theorem no_false_alarm_of_undisturbed_boots (json : SerdeJson (Fields ε)) (hjson : json.Lawful)
    (path : String) (labels : List (Label ε)) (s : State)
    (hboots : AllSteps (step json path) (fun s a => bootUndisturbed json path s a) .init labels)
    (hrun : run (step json path) .init labels = some s) :
    ∀ r ∈ completeRecords json s.bytes, raisesAlarm r = false := by
  have hinv : Inv json s := invariant_of_allSteps (inv_step hjson) inv_init hboots hrun
  intro r hr
  cases hfile : s.file with
  | none =>
      rw [State.bytes, hfile] at hr
      cases hr
  | some file =>
      obtain ⟨log, hbytes, hlog⟩ := hinv.content file hfile
      rw [State.bytes, hfile, Option.map_some, Option.getD_some, hbytes,
        completeRecords_logBytes hjson] at hr
      obtain ⟨w, hw, rfl⟩ := List.mem_map.mp hr
      exact (hlog w hw).1

def sampleText (seq : String) (processId : ProcessId)
    (previousLastSeq previousProcessId inode changed : String) : String :=
  Sample.recordText seq processId <|
    "\"kind\":\"process_start\",\"version\":\"0.1.0\",\"git_commit\":\"\"," ++
    "\"posture\":\"draft-safe\",\"tool_matrix\":[],\"config_path\":\"/c.toml\"," ++
    "\"config_hash_sha256\":\"aa\",\"previous_last_seq\":" ++ previousLastSeq ++
    ",\"previous_process_id\":" ++ previousProcessId ++ ",\"previous_file_inode\":" ++ inode ++
    ",\"audit_file_inode_changed\":" ++ changed

/-- Three boots; the last one has found `previous_file_inode` 7 in the file 8. -/
def sampleTable : List (Record Unit × String) :=
  [(⟨1, Sample.ts, Sample.processA, .processStart 7 (.start none none false ())⟩,
      sampleText "1" Sample.processA "null" "null" "7" "false"),
   (⟨2, Sample.ts, Sample.processB,
        .processStart 7 (.start (some 1) (some Sample.processA) false ())⟩,
      sampleText "2" Sample.processB "1" "\"01JXAAAAAAAAAAAAAAAAAAAAAA\"" "7" "false"),
   (⟨3, Sample.ts, Sample.processA,
        .processStart 8 (.start (some 2) (some Sample.processB) true ())⟩,
      sampleText "3" Sample.processA "2" "\"01JXBBBBBBBBBBBBBBBBBBBBBB\"" "8" "true")]

def codec : SerdeJson (Fields Unit) := tableJson sampleTable

theorem codec_lawful : codec.Lawful :=
  tableJson_lawful (by decide +kernel) (by decide +kernel) (by decide +kernel)

def boot1 : Written codec :=
  ⟨⟨1, Sample.ts, Sample.processA, .processStart 7 (.start none none false ())⟩,
    utf8 (sampleText "1" Sample.processA "null" "null" "7" "false"), by decide +kernel⟩

def boot2 : Written codec :=
  ⟨⟨2, Sample.ts, Sample.processB,
      .processStart 7 (.start (some 1) (some Sample.processA) false ())⟩,
    utf8 (sampleText "2" Sample.processB "1" "\"01JXAAAAAAAAAAAAAAAAAAAAAA\"" "7" "false"),
    by decide +kernel⟩

def boot3 : Written codec :=
  ⟨⟨3, Sample.ts, Sample.processA,
      .processStart 8 (.start (some 2) (some Sample.processB) true ())⟩,
    utf8 (sampleText "3" Sample.processA "2" "\"01JXBBBBBBBBBBBBBBBBBBBBBB\"" "8" "true"),
    by decide +kernel⟩

/-- A run that boots and stops, on file 7 the first time. -/
def bootAndStop (processId : ProcessId) (rotateBytes : Nat) (inode : UInt64) :
    List (Label Unit) :=
  [.scan, .open 0 processId rotateBytes inode, .writeStart Sample.ts () inode, .stop]

theorem run_first_boot (rotateBytes : Nat) (h : rotateBytes = 0 ∨ rotateBytes = 100) :
    run (step codec "audit.jsonl") .init (bootAndStop Sample.processA rotateBytes 7) =
      some ⟨some ⟨7, boot1.line⟩, [7], [], none⟩ := by
  rcases h with rfl | rfl
  · decide +kernel
  · decide +kernel

theorem scan_boot1 (s : State) (hfile : s.file = some ⟨7, boot1.line⟩) :
    step codec "audit.jsonl" s .scan =
      some { s with booting := s.booting ++ [⟨some 1, some Sample.processA, some 7⟩] } := by
  have hline : boot1.line = logBytes [boot1] := by simp [logBytes]
  rw [step_scan codec_lawful hfile hline (by decide +kernel)]
  have htrailing : TrailingState.absorbLog {} [boot1] =
      ⟨some 1, some Sample.processA, some 7⟩ := by decide +kernel
  rw [htrailing]

/-- Two boots without rotation. -/
theorem no_false_alarm_two_boots :
    ∃ s, run (step codec "audit.jsonl") .init
        (bootAndStop Sample.processA 0 7 ++ bootAndStop Sample.processB 0 8) = some s ∧
      ∀ r ∈ completeRecords codec s.bytes, raisesAlarm r = false := by
  have hfirst := run_first_boot 0 (.inl rfl)
  have hscan := scan_boot1 ⟨some ⟨7, boot1.line⟩, [7], [], none⟩ rfl
  have hsecond : run (step codec "audit.jsonl") ⟨some ⟨7, boot1.line⟩, [7], [], none⟩
      (bootAndStop Sample.processB 0 8) =
        some ⟨some ⟨7, boot1.line ++ boot2.line⟩, [7], [], none⟩ := by
    rw [bootAndStop, run_cons, hscan]
    decide +kernel
  have hrun := (run_append_eq_some (step codec "audit.jsonl")).mpr ⟨_, hfirst, hsecond⟩
  refine ⟨_, hrun, ?_⟩
  apply no_false_alarm_of_undisturbed_boots codec codec_lawful "audit.jsonl" _ _ ?_ hrun
  rw [allSteps_append]
  refine ⟨by decide +kernel, ?_⟩
  intro t ht
  rw [hfirst] at ht
  cases ht
  refine ⟨rfl, ?_⟩
  intro t ht
  rw [hscan] at ht
  cases ht
  exact ⟨bootUndisturbed_scan hscan _ _ _, by decide +kernel⟩

/-- With `rotate_bytes = 100` the second boot write rotates, and the third boot
    raises the alarm. -/
theorem false_alarm_after_rotated_boot :
    codec.Lawful ∧ ∃ s, run (step codec "audit.jsonl") .init
        (bootAndStop Sample.processA 100 7 ++ (bootAndStop Sample.processB 100 8 ++
          [.scan, .open 0 Sample.processA 100 9, .writeStart Sample.ts () 9])) = some s ∧
      ∃ r ∈ completeRecords codec s.bytes, raisesAlarm r = true := by
  have hfirst := run_first_boot 100 (.inr rfl)
  have hsecond : run (step codec "audit.jsonl") ⟨some ⟨7, boot1.line⟩, [7], [], none⟩
      (bootAndStop Sample.processB 100 8) =
        some ⟨some ⟨8, boot2.line⟩, [8, 7], [], none⟩ := by
    rw [bootAndStop, run_cons, scan_boot1 _ rfl]
    decide +kernel
  have hfresh : (9 : UInt64) ∉ [(8 : UInt64), 7] := by decide
  obtain ⟨t, hthird, hmem, halarm⟩ := alarm_after_rotated_boot codec_lawful "audit.jsonl"
    ⟨some ⟨8, boot2.line⟩, [8, 7], [], none⟩ boot2 boot3 rfl rfl rfl rfl (by decide)
    (by decide +kernel) hfresh Sample.processA 100 Sample.ts () (by decide +kernel)
  refine ⟨codec_lawful, t, ?_, boot3.record, hmem, halarm⟩
  rw [run_append_eq_some]
  refine ⟨_, hfirst, ?_⟩
  rw [run_append_eq_some]
  exact ⟨_, hsecond, hthird⟩

end RustyImap.AuditTamper
