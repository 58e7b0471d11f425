import RustyImap.LabelledRuns
import RustyImap.AuditLog

/-!
# Sequence numbers over restarts

The life of one audit path over any number of server runs:
`init_audit_writer_multi` (`rimap-server/src/boot/audit_init.rs`),
`AuditWriter::allocate_seq` and `emit` (`rimap-audit/src/writer/emit.rs`), the
append and rotation of the worker (`writer/deadline.rs`).

A caller allocates its number and later writes its record; the two steps of
different callers interleave freely, so `Writer.pending` is a list and any of its
entries may be written next.  A run ends between two writes and takes its
pending numbers with it: `Label.stop` is the clean exit and the crash alike.
-/

namespace RustyImap.AuditSequence

open RustyImap.LabelledRuns RustyImap.SeparatedLines RustyImap.AuditLog

variable {δ : Type}

structure Writer where
  processId : ProcessId
  rotateBytes : Nat
  nextSeq : Seq
  pending : List Seq         -- allocated, not yet written
deriving DecidableEq, Repr

structure State where
  file : Option Bytes        -- the active file, once it exists
  writer : Option Writer     -- the process that holds the lock
deriving DecidableEq, Repr

def State.init : State := ⟨none, none⟩

def State.bytes (s : State) : Bytes := s.file.getD []

inductive Label (δ : Type) where
  | start (processId : ProcessId) (rotateBytes : Nat)
  | allocate
  | write (i : Nat) (ts : Int) (payload : Payload δ)
  | stop
deriving DecidableEq, Repr

/-- `trailing.last_seq.map_or(Seq::FIRST, Seq::next)`. -/
def initialSeq (trailing : TrailingState) : Seq :=
  match trailing.lastSeq with
  | none => Seq.FIRST
  | some seq => Seq.next seq

/-- `perform_write`: a full file is rotated away before the line goes out. -/
def performWrite (rotateBytes : Nat) (file line : Bytes) : Bytes :=
  if 0 < rotateBytes ∧ rotateBytes ≤ file.length then line else file ++ line

def step (json : SerdeJson δ) (path : String) (s : State) : Label δ → Option State
  | .start processId rotateBytes =>
      match s.writer, readTrailingState json path s.file with
      | none, .ok trailing =>
          some ⟨some s.bytes, some ⟨processId, rotateBytes, initialSeq trailing, []⟩⟩
      | _, _ => none
  | .allocate =>
      match s.writer with
      -- `fetch_add` wraps
      | some w => some { s with
          writer := some { w with nextSeq := w.nextSeq + 1, pending := w.pending ++ [w.nextSeq] } }
      | none => none
  | .write i ts payload =>
      match s.writer with
      | some w =>
          match w.pending[i]? with
          | some seq =>
              let w' := { w with pending := w.pending.eraseIdx i }
              match json.toVec ⟨seq, ts, w.processId, payload⟩ with
              | some text =>
                  some ⟨some (performWrite w.rotateBytes s.bytes (text ++ [LF])), some w'⟩
              -- `AuditError::Serialize`: nothing is written
              | none => some { s with writer := some w' }
          | none => none
      | none => none
  | .stop =>
      match s.writer with
      | some _ => some { s with writer := none }
      | none => none

/-! ## Everything a step can do -/

inductive Transition (json : SerdeJson δ) (path : String) (s : State) : Label δ → State → Prop where
  | start (processId : ProcessId) (rotateBytes : Nat) (trailing : TrailingState)
      (hidle : s.writer = none) (hread : readTrailingState json path s.file = .ok trailing) :
      Transition json path s (.start processId rotateBytes)
        ⟨some s.bytes, some ⟨processId, rotateBytes, initialSeq trailing, []⟩⟩
  | allocate (w : Writer) (hw : s.writer = some w) :
      Transition json path s .allocate { s with
        writer := some { w with nextSeq := w.nextSeq + 1, pending := w.pending ++ [w.nextSeq] } }
  | write (i : Nat) (ts : Int) (payload : Payload δ) (w : Writer) (seq : Seq) (text : Bytes)
      (hw : s.writer = some w) (hseq : w.pending[i]? = some seq)
      (htext : json.toVec ⟨seq, ts, w.processId, payload⟩ = some text) :
      Transition json path s (.write i ts payload)
        ⟨some (performWrite w.rotateBytes s.bytes (text ++ [LF])),
          some { w with pending := w.pending.eraseIdx i }⟩
  | unserialised (i : Nat) (ts : Int) (payload : Payload δ) (w : Writer)
      (hw : s.writer = some w) :
      Transition json path s (.write i ts payload)
        { s with writer := some { w with pending := w.pending.eraseIdx i } }
  | stop (w : Writer) (hw : s.writer = some w) :
      Transition json path s .stop { s with writer := none }

variable {json : SerdeJson δ} {path : String}

theorem transition_of_step {s t : State} {a : Label δ} (h : step json path s a = some t) :
    Transition json path s a t := by
  cases a with
  | start processId rotateBytes =>
      simp only [step] at h
      split at h
      · rename_i trailing hidle hread
        cases h
        exact .start processId rotateBytes trailing hidle hread
      · cases h
  | allocate =>
      simp only [step] at h
      split at h
      · rename_i w hw
        cases h
        exact .allocate w hw
      · cases h
  | write i ts payload =>
      simp only [step] at h
      split at h
      · rename_i w hw
        split at h
        · rename_i seq hseq
          split at h
          · rename_i text htext
            cases h
            exact .write i ts payload w seq text hw hseq htext
          · cases h
            exact .unserialised i ts payload w hw
        · cases h
      · cases h
  | stop =>
      simp only [step] at h
      split at h
      · rename_i w hw
        cases h
        exact .stop w hw
      · cases h

/-! ## The invariant -/

/-- The numbers a running writer has given out and will give out are not in the
    file, as long as the counter has not wrapped. -/
structure Fresh (w : Writer) (log : List (Written json)) : Prop where
  written : ∀ r ∈ records log, r.seq.toNat < w.nextSeq.toNat
  allocated : ∀ q ∈ w.pending, q.toNat < w.nextSeq.toNat
  distinct : w.pending.Nodup
  unwritten : ∀ q ∈ w.pending, ∀ r ∈ records log, r.seq ≠ q

def Inv (json : SerdeJson δ) (s : State) : Prop :=
  ∃ log : List (Written json), s.bytes = logBytes log ∧
    ((records log).map (·.seq)).Nodup ∧ ∀ w, s.writer = some w → Fresh w log

theorem inv_init : Inv json .init :=
  ⟨[], rfl, List.nodup_nil, nofun⟩

theorem toNat_add_one {q : Seq} (h : q ≠ Seq.MAX) : (q + 1).toNat = q.toNat + 1 := by
  have hlt : q.toNat < 2 ^ 64 := q.toNat_lt
  have hne : q.toNat ≠ 2 ^ 64 - 1 := fun heq => h (UInt64.toNat_inj.mp heq)
  rw [UInt64.toNat_add]
  exact Nat.mod_eq_of_lt (by simp; omega)

theorem Fresh.allocate {w : Writer} {log : List (Written json)} (h : Fresh w log)
    (hmax : w.nextSeq ≠ Seq.MAX) :
    Fresh { w with nextSeq := w.nextSeq + 1, pending := w.pending ++ [w.nextSeq] } log := by
  have hnext := toNat_add_one hmax
  constructor
  · intro r hr
    have hlt := h.written r hr
    simp only [hnext]
    omega
  · intro q hq
    simp only [hnext]
    rcases List.mem_append.mp hq with hq | hq
    · have hlt := h.allocated q hq
      omega
    · rw [List.mem_singleton.mp hq]
      omega
  · rw [List.nodup_append]
    refine ⟨h.distinct, List.nodup_singleton _, ?_⟩
    rintro q hq _ hmem rfl
    have hlt := h.allocated q hq
    rw [List.mem_singleton.mp hmem] at hlt
    omega
  · intro q hq r hr
    rcases List.mem_append.mp hq with hq | hq
    · exact h.unwritten q hq r hr
    · rintro rfl
      have hlt := h.written r hr
      rw [List.mem_singleton.mp hq] at hlt
      omega

theorem Fresh.erase {w : Writer} {log : List (Written json)} (h : Fresh w log) (i : Nat) :
    Fresh { w with pending := w.pending.eraseIdx i } log := by
  have hsub := List.eraseIdx_sublist w.pending i
  constructor
  · exact h.written
  · intro q hq
    exact h.allocated q (hsub.subset hq)
  · exact h.distinct.sublist hsub
  · intro q hq
    exact h.unwritten q (hsub.subset hq)

theorem Fresh.rotate {w : Writer} {log : List (Written json)} (h : Fresh w log) :
    Fresh w ([] : List (Written json)) :=
  ⟨nofun, h.allocated, h.distinct, fun _ _ => nofun⟩

/-- A pending number written to the file leaves the pending list. -/
theorem Fresh.write {w : Writer} {log : List (Written json)} (h : Fresh w log) {i : Nat}
    {new : Written json} (hseq : w.pending[i]? = some new.record.seq) :
    Fresh { w with pending := w.pending.eraseIdx i } (log ++ [new]) := by
  have hmem : new.record.seq ∈ w.pending := List.mem_of_getElem? hseq
  have hrecords : records (log ++ [new]) = records log ++ [new.record] := by simp [records]
  have hrest := h.erase i
  constructor
  · intro r hr
    rw [hrecords] at hr
    rcases List.mem_append.mp hr with hr | hr
    · exact hrest.written r hr
    · rw [List.mem_singleton.mp hr]
      exact h.allocated _ hmem
  · exact hrest.allocated
  · exact hrest.distinct
  · intro q hq r hr
    rw [hrecords] at hr
    rcases List.mem_append.mp hr with hr | hr
    · exact hrest.unwritten q hq r hr
    · obtain ⟨hi, hget⟩ := List.getElem?_eq_some_iff.mp hseq
      have hgone : new.record.seq ∉ w.pending.eraseIdx i := by
        rw [← h.distinct.erase_getElem i hi, hget]
        exact h.distinct.not_mem_erase
      rw [List.mem_singleton.mp hr]
      rintro rfl
      exact hgone hq

theorem nodup_write {w : Writer} {log : List (Written json)} (h : Fresh w log)
    (hlog : ((records log).map (·.seq)).Nodup) {new : Written json}
    (hpending : new.record.seq ∈ w.pending) :
    ((records (log ++ [new])).map (·.seq)).Nodup := by
  have hseqs : (records (log ++ [new])).map (·.seq) =
      (records log).map (·.seq) ++ [new.record.seq] := by
    simp [records]
  rw [hseqs, List.nodup_append]
  refine ⟨hlog, List.nodup_singleton _, ?_⟩
  rintro q hq _ hmem rfl
  obtain ⟨r, hr, rfl⟩ := List.mem_map.mp hq
  exact h.unwritten _ hpending r hr (List.mem_singleton.mp hmem)

/-! ## Restarts

The self-check continues from the last line of the file, so a restart is safe
where the last line carries the greatest number. -/

/-- The caps of the self-check, for the file a run starts on. -/
def withinCaps (s : State) : Label δ → Bool
  | .start .. => s.bytes.length ≤ MAX_SELF_CHECK_BYTES &&
      (splitKeep LF s.bytes).all (·.length ≤ MAX_LINE_BYTES)
  | .allocate | .write .. | .stop => true

/-- No record carries a greater number than the last one. -/
def lastIsGreatest (json : SerdeJson δ) (file : Bytes) : Bool :=
  (completeRecords json file).getLast?.all fun last =>
    (completeRecords json file).all fun r => r.seq ≤ last.seq

/-- A run starts where the last record carries the greatest number, and neither
    `Seq::next` saturates nor `fetch_add` wraps. -/
def numbersOnward (json : SerdeJson δ) (s : State) : Label δ → Bool
  | .start .. => lastIsGreatest json s.bytes &&
      (completeRecords json s.bytes).all fun r => r.seq ≠ Seq.MAX
  | .allocate => s.writer.all fun w => w.nextSeq ≠ Seq.MAX
  | .write .. | .stop => true

/-- What the boot does on a log within the caps. -/
theorem step_start (hjson : json.Lawful) {s : State} {log : List (Written json)}
    (hbytes : s.bytes = logBytes log) (hidle : s.writer = none) {processId : ProcessId}
    {rotateBytes : Nat} (hcaps : withinCaps s (.start processId rotateBytes : Label δ)) :
    step json path s (.start processId rotateBytes) =
      some ⟨some (logBytes log), some ⟨processId, rotateBytes,
        (log.getLast?.map fun last => Seq.next last.record.seq).getD Seq.FIRST, []⟩⟩ := by
  simp only [withinCaps, hbytes, splitKeep_logBytes hjson, Bool.and_eq_true, decide_eq_true_eq,
    List.all_eq_true, List.mem_map, forall_exists_index, and_imp, forall_apply_eq_imp_iff₂]
    at hcaps
  obtain ⟨hsize, hlines⟩ := hcaps
  have hread : readTrailingState json path s.file = .ok (TrailingState.absorbLog {} log) := by
    have hscan := readTrailingState_torn hjson path log [] (by simp)
    rw [List.append_nil, if_neg (by omega), if_pos (by decide +kernel)] at hscan
    rw [readTrailingState_getD, ← State.bytes, hbytes, hscan]
  have hinitial : initialSeq (TrailingState.absorbLog {} log) =
      (log.getLast?.map fun last => Seq.next last.record.seq).getD Seq.FIRST := by
    rcases List.eq_nil_or_concat log with rfl | ⟨front, last, rfl⟩
    · rfl
    · rw [List.concat_eq_append, TrailingState.absorbLog_concat, if_pos (hlines last (by simp))]
      simp [initialSeq, TrailingState.absorb, AuditRecord.tailEnvelope]
  simp only [step, hidle, hread, hinitial, hbytes]

/-- A run that starts on a log whose last line carries the greatest number. -/
theorem Fresh.start {log : List (Written json)} {processId : ProcessId} {rotateBytes : Nat}
    (hgreatest : ∀ last ∈ log.getLast?, ∀ r ∈ records log, r.seq ≤ last.record.seq)
    (hmax : ∀ r ∈ records log, r.seq ≠ Seq.MAX) :
    Fresh ⟨processId, rotateBytes,
      (log.getLast?.map fun last => Seq.next last.record.seq).getD Seq.FIRST, []⟩ log := by
  refine ⟨?_, nofun, List.nodup_nil, nofun⟩
  intro r hr
  rcases List.eq_nil_or_concat log with rfl | ⟨front, last, rfl⟩
  · cases hr
  · rw [List.concat_eq_append] at hr hgreatest hmax ⊢
    have hle := hgreatest last (by simp) r hr
    have hlast := hmax last.record (by simp [records])
    have hnext := toNat_add_one hlast
    rw [UInt64.le_iff_toNat_le] at hle
    simp only [List.getLast?_append, List.getLast?_singleton, Option.some_or, Option.map_some,
      Option.getD_some, Seq.next, if_neg hlast, hnext]
    omega

theorem inv_step (hjson : json.Lawful) (s : State) (a : Label δ) (t : State) (h : Inv json s)
    (hok : withinCaps s a ∧ numbersOnward json s a) (hstep : step json path s a = some t) :
    Inv json t := by
  obtain ⟨log, hbytes, hnodup, hfresh⟩ := h
  obtain ⟨hcaps, honward⟩ := hok
  cases transition_of_step hstep with
  | start processId rotateBytes trailing hidle hread =>
      rw [step_start hjson hbytes hidle hcaps] at hstep
      simp only [Option.some.injEq, State.mk.injEq, Writer.mk.injEq, true_and, and_true] at hstep
      refine ⟨log, hbytes, hnodup, ?_⟩
      rintro _ ⟨rfl⟩
      rw [← hstep.2]
      simp only [numbersOnward, lastIsGreatest, hbytes, completeRecords_logBytes hjson,
        Bool.and_eq_true, List.all_eq_true, decide_eq_true_eq] at honward
      obtain ⟨hgreatest, hmax⟩ := honward
      apply Fresh.start
      · intro last hlast r hr
        have hlastRecord : (records log).getLast? = some last.record := by
          simp [records, Option.mem_def.mp hlast]
        simp only [hlastRecord, Option.all_some, List.all_eq_true, decide_eq_true_eq] at hgreatest
        exact hgreatest r hr
      · intro r hr
        simpa using hmax r hr
  | allocate w hw =>
      refine ⟨log, hbytes, hnodup, ?_⟩
      rintro _ ⟨rfl⟩
      have hmax : w.nextSeq ≠ Seq.MAX := by simpa [numbersOnward, hw] using honward
      exact (hfresh w hw).allocate hmax
  | write i ts payload w seq text hw hseq htext =>
      have hmem := List.mem_of_getElem? hseq
      let new : Written json := ⟨⟨seq, ts, w.processId, payload⟩, text, htext⟩
      have hline : logBytes [new] = text ++ [LF] := by simp [logBytes, Written.line, new]
      by_cases hfull : 0 < w.rotateBytes ∧ w.rotateBytes ≤ s.bytes.length
      · refine ⟨[] ++ [new], ?_, nodup_write (hfresh w hw).rotate List.nodup_nil hmem, ?_⟩
        · change performWrite w.rotateBytes s.bytes (text ++ [LF]) = _
          rw [performWrite, if_pos hfull, List.nil_append, hline]
        · rintro _ ⟨rfl⟩
          exact (hfresh w hw).rotate.write hseq
      · refine ⟨log ++ [new], ?_, nodup_write (hfresh w hw) hnodup hmem, ?_⟩
        · change performWrite w.rotateBytes s.bytes (text ++ [LF]) = _
          rw [performWrite, if_neg hfull, logBytes_append, hline, hbytes]
        · rintro _ ⟨rfl⟩
          exact (hfresh w hw).write hseq
  | unserialised i ts payload w hw =>
      refine ⟨log, hbytes, hnodup, ?_⟩
      rintro _ ⟨rfl⟩
      exact (hfresh w hw).erase i
  | stop w hw =>
      refine ⟨log, hbytes, hnodup, ?_⟩
      intro w' hw'
      cases hw'

/-! ## Where a restart goes wrong

Conversely, a run that starts while an earlier line carries a greater number
needs only enough callers to hand that number out again. -/

theorem run_allocate {s : State} {w : Writer} (hw : s.writer = some w) (n : Nat) :
    run (step json path) s (List.replicate n .allocate) = some { s with
      writer := some { w with
        nextSeq := w.nextSeq + UInt64.ofNat n
        pending := w.pending ++ (List.range n).map fun i => w.nextSeq + UInt64.ofNat i } } := by
  induction n with
  | zero => simp [← hw]
  | succ n ih =>
      have hnext : w.nextSeq + UInt64.ofNat n + 1 = w.nextSeq + UInt64.ofNat (n + 1) := by
        rw [UInt64.add_assoc, UInt64.ofNat_add]
        rfl
      rw [List.replicate_succ']
      apply run_concat _ ih
      simp [step, hnext, List.range_succ]

/-- Between the number after `q` and a greater one lie as many as it takes. -/
theorem next_add_ofNat {q q' : Seq} (h : q < q') :
    Seq.next q + UInt64.ofNat (q'.toNat - q.toNat - 1) = q' := by
  rw [UInt64.lt_iff_toNat_lt] at h
  have hbound := q'.toNat_lt
  have hmax : q ≠ Seq.MAX := by
    intro heq
    have hnat : q.toNat = 2 ^ 64 - 1 := by rw [heq]; rfl
    omega
  have hnext := toNat_add_one hmax
  apply UInt64.toNat_inj.mp
  simp only [Seq.next, if_neg hmax, UInt64.toNat_add _ (UInt64.ofNat _), hnext,
    UInt64.toNat_ofNat']
  omega

/-- The line of a pending number, on a file that is not rotated. -/
theorem step_write {log : List (Written json)} {w : Writer} (hrotate : w.rotateBytes = 0)
    {i : Nat} (new : Written json) (hpending : w.pending[i]? = some new.record.seq)
    (hprocess : new.record.processId = w.processId) :
    step json path ⟨some (logBytes log), some w⟩ (.write i new.record.ts new.record.payload) =
      some ⟨some (logBytes (log ++ [new])),
        some { w with pending := w.pending.eraseIdx i }⟩ := by
  have htext : json.toVec ⟨new.record.seq, new.record.ts, w.processId, new.record.payload⟩ =
      some new.text := by
    rw [← hprocess]
    exact new.toVec_eq
  have hfile : performWrite w.rotateBytes (logBytes log) (new.text ++ [LF]) =
      logBytes (log ++ [new]) := by
    rw [performWrite, if_neg (by omega), logBytes_append]
    simp [logBytes, Written.line]
  simp only [step, hpending, htext, State.bytes, Option.getD_some, hfile]

/-- A boot, `n + 1` callers, and the record of the last of them. -/
def bootAndWrite (processId : ProcessId) (n : Nat) (ts : Int) (payload : Payload δ) :
    List (Label δ) :=
  .start processId 0 :: (List.replicate (n + 1) .allocate ++ [.write n ts payload])

/-- **A restart that repeats a number.** -/
theorem restart_repeats (hjson : json.Lawful) (path : String) {log : List (Written json)}
    {processId : ProcessId}
    (hcaps : withinCaps ⟨some (logBytes log), none⟩ (.start processId 0 : Label δ))
    (last r new : Written json) (hlast : log.getLast? = some last) (hr : r ∈ log)
    (hlt : last.record.seq < r.record.seq) (hseq : new.record.seq = r.record.seq)
    (hprocess : new.record.processId = processId) :
    ∃ t, run (step json path) ⟨some (logBytes log), none⟩
        (bootAndWrite processId (r.record.seq.toNat - last.record.seq.toNat - 1)
          new.record.ts new.record.payload) = some t ∧
      ¬ ((completeRecords json t.bytes).map (·.seq)).Nodup := by
  let n := r.record.seq.toNat - last.record.seq.toNat - 1
  let w : Writer := ⟨processId, 0, Seq.next last.record.seq, []⟩
  let given : Writer := { w with
    nextSeq := w.nextSeq + UInt64.ofNat (n + 1)
    pending := (List.range (n + 1)).map fun i => w.nextSeq + UInt64.ofNat i }
  have hstart : step json path ⟨some (logBytes log), none⟩ (.start processId 0) =
      some ⟨some (logBytes log), some w⟩ := by
    rw [step_start hjson rfl rfl hcaps, hlast]
    rfl
  have hallocate : run (step json path) ⟨some (logBytes log), some w⟩
      (List.replicate (n + 1) .allocate) = some ⟨some (logBytes log), some given⟩ :=
    run_allocate rfl (n + 1)
  have hpending : given.pending[n]? = some new.record.seq := by
    have hgiven : w.nextSeq + UInt64.ofNat n = new.record.seq := by
      rw [hseq]
      exact next_add_ofNat hlt
    simp [given, hgiven]
  have hrun : run (step json path) ⟨some (logBytes log), none⟩
      (bootAndWrite processId n new.record.ts new.record.payload) =
        some ⟨some (logBytes (log ++ [new])),
          some { given with pending := given.pending.eraseIdx n }⟩ := by
    rw [bootAndWrite, run_cons, hstart, Option.bind_some]
    exact run_concat _ hallocate (step_write rfl new hpending hprocess)
  refine ⟨_, hrun, ?_⟩
  intro hnodup
  simp only [State.bytes, Option.getD_some, completeRecords_logBytes hjson, records,
    List.map_append, List.map_cons, List.map_nil, List.nodup_append] at hnodup
  have hwritten : r.record.seq ∈ (log.map Written.record).map (·.seq) :=
    List.mem_map.mpr ⟨r.record, List.mem_map.mpr ⟨r, hr, rfl⟩, rfl⟩
  exact hnodup.2.2 _ hwritten _ (by simp) hseq.symm

/-- The boot, then the records of three calls; the first two overtake each other. -/
def overtakenRun : List (Label Unit) :=
  [.start Sample.processA 0, .allocate, .write 0 Sample.ts Sample.bootA.record.payload,
   .allocate, .allocate, .write 1 Sample.ts Sample.call3.record.payload,
   .write 0 Sample.ts Sample.call2.record.payload]

def orderedRun : List (Label Unit) :=
  overtakenRun ++ [.allocate, .write 0 Sample.ts Sample.call4.record.payload, .stop]

def nextRun (boot : Payload Unit) : List (Label Unit) :=
  [.start Sample.processB 0, .allocate, .write 0 Sample.ts boot]

end RustyImap.AuditSequence
