import Mathlib.Data.List.Nodup
import RustyImap.AuditLog
import RustyImap.BufferedWriter
import RustyImap.LabelledRuns

/-!
# The audit worker under failing writes and rotations

`perform_write` (`rimap-audit/src/writer/deadline.rs`) with `rotate_file` and
`unique_rotated_path` (`writer/rotation.rs`), over the files of the audit
directory.  A file is known by its inode: a rename moves a name, and the worker's
descriptor stays with the file it has opened.  Pruning is left out.

What the operating system does with one request is the `Os` part of its label:
the clock, the outcome of the system calls of a rotation, the calls of `write`
and the `fsync`.  A system is the worker with the requests it has served and the
replies it has given.
-/

namespace RustyImap.AuditWorker

open RustyImap.LabelledRuns RustyImap.SeparatedLines RustyImap.BufferedWriter
open RustyImap.AuditLog (Bytes LF)

/-! ## Files -/

/-- The audit directory. -/
structure Disk where
  content : Nat → Bytes            -- by inode
  nextInode : Nat
  rotated : List (String × Nat)    -- rotated names, the oldest rotation first
  active : Option Nat              -- the inode at the active path

namespace Disk

/-- The inodes of the log, in reading order: rotated files, then the active one. -/
def inodes (disk : Disk) : List Nat := disk.rotated.map Prod.snd ++ disk.active.toList

/-- The complete lines of the log in reading order. -/
def lines (disk : Disk) : List Bytes :=
  disk.inodes.flatMap fun inode => terminated LF (disk.content inode)

def nameExists (disk : Disk) (name : String) : Bool := disk.rotated.any fun file => file.1 == name

def append (disk : Disk) (inode : Nat) (bytes : Bytes) : Disk :=
  { disk with
    content := fun i => if i = inode then disk.content i ++ bytes else disk.content i }

/-- `std::fs::rename(active, dst)`, which replaces `dst`. -/
def rename (disk : Disk) (inode : Nat) (dst : String) : Disk :=
  { disk with
    rotated := disk.rotated.filter (fun file => file.1 != dst) ++ [(dst, inode)]
    active := none }

/-- Open with `create` and `append` at the active path, which no file has. -/
def create (disk : Disk) : Disk :=
  { disk with
    content := fun i => if i = disk.nextInode then [] else disk.content i
    nextInode := disk.nextInode + 1
    active := some disk.nextInode }

end Disk

/-! ## Rotation -/

structure OffsetDateTime where
  year : Nat
  month : Nat
  day : Nat
  hour : Nat
  minute : Nat
  second : Nat
  millisecond : Nat
deriving DecidableEq, Repr

/-- Decimal digits, padded with zeros. -/
def padded (width n : Nat) : String :=
  "".pushn '0' (width - (toString n).length) ++ toString n

/-- `rotated_path`. -/
def rotatedPath (active : String) (now : OffsetDateTime) : String :=
  active ++ "." ++ padded 4 now.year ++ "-" ++ padded 2 now.month ++ "-" ++ padded 2 now.day ++
    "T" ++ padded 2 now.hour ++ "-" ++ padded 2 now.minute ++ "-" ++ padded 2 now.second ++
    "." ++ padded 3 now.millisecond ++ "Z"

def u32Max : Nat := 4294967295

/-- The names that a rotation tries, in order. -/
def candidates (base : String) : List String :=
  base :: (List.range' 1 u32Max).map fun counter => base ++ "-" ++ toString counter

/-- `unique_rotated_path`: the first candidate that does not exist, else the
    base name. -/
def uniqueRotatedPath (disk : Disk) (active : String) (now : OffsetDateTime) : String :=
  ((candidates (rotatedPath active now)).find? fun name => !disk.nameExists name).getD
    (rotatedPath active now)

inductive LockResult where
  | locked
  | wouldBlock
  | error (message : String)
deriving DecidableEq, Repr

/-- What the system calls made for one request do; `some` is the text of an error. -/
structure Os where
  now : OffsetDateTime
  rename : Option String
  openFresh : Option String
  lock : LockResult
  writes : List SinkWrite
  sync : Option String
deriving DecidableEq, Repr

inductive AuditError where
  | rotate (path reason : String)
  | write (path : String)
  | fsync (path source : String)
deriving DecidableEq, Repr

/-- `rotate_file`: the file renamed and a fresh one opened and locked. -/
def rotateFile (path : String) (disk : Disk) (os : Os) : Disk × Except AuditError Nat :=
  let dst := uniqueRotatedPath disk path os.now
  match disk.active, os.rename with
  | none, _ =>
      (disk, .error (.rotate path
        ("rename to " ++ dst ++ ": No such file or directory (os error 2)")))
  | some _, some source => (disk, .error (.rotate path ("rename to " ++ dst ++ ": " ++ source)))
  | some inode, none =>
      let renamed := disk.rename inode dst
      match os.openFresh with
      | some source => (renamed, .error (.rotate path ("open fresh file: " ++ source)))
      | none =>
          match os.lock with
          | .locked => (renamed.create, .ok renamed.nextInode)
          | .wouldBlock =>
              (renamed.create, .error (.rotate path
                "fresh file unexpectedly locked by another process"))
          | .error e => (renamed.create, .error (.rotate path ("lock fresh file: " ++ e)))

/-! ## The worker -/

structure Config where
  path : String
  rotateBytes : Nat
deriving DecidableEq, Repr

/-- `Request::Write`: one record and its line feed. -/
structure Request where
  bytes : Bytes
  fsync : Bool
  isLine : IsLine LF bytes

structure Inner where
  file : Nat             -- the inode the descriptor is open on
  buf : Bytes            -- what the `BufWriter` holds
  bytesWritten : Nat
deriving DecidableEq, Repr

structure Worker where
  disk : Disk
  inner : Inner

/-- Capacity of `BufWriter::new`. -/
def DEFAULT_BUF_SIZE : Nat := 8192

/-- `u64::saturating_add`. -/
def saturatingAdd (a b : Nat) : Nat :=
  if a + b ≤ 18446744073709551615 then a + b else 18446744073709551615

def rotationDue (cfg : Config) (inner : Inner) : Bool :=
  0 < cfg.rotateBytes && cfg.rotateBytes ≤ inner.bytesWritten

/-- The rotation check of `perform_write`.  Assigning the new writer drops the
    old one, which flushes its buffer once more and forgets what is left. -/
def checkRotation (cfg : Config) (w : Worker) (os : Os) :
    Worker × Except AuditError (List SinkWrite) :=
  if rotationDue cfg w.inner then
    match rotateFile cfg.path w.disk os with
    | (disk, .error e) => ({ w with disk := disk }, .error e)
    | (disk, .ok file) =>
        let dropped := flushBuf w.inner.buf os.writes
        (⟨disk.append w.inner.file dropped.out, ⟨file, [], 0⟩⟩, .ok dropped.rest)
  else (w, .ok os.writes)

/-- The `write_all` and the `flush` of `perform_write`. -/
def writeFlushed (buf bytes : Bytes) (calls : List SinkWrite) : Outcome UInt8 :=
  let wrote := writeAll DEFAULT_BUF_SIZE buf bytes calls
  if wrote.ok then
    let flushed := flushBuf wrote.buf wrote.rest
    { flushed with out := wrote.out ++ flushed.out }
  else wrote

/-- The write of `perform_write`, after its rotation check. -/
def appendRecord (cfg : Config) (w : Worker) (req : Request) (os : Os)
    (calls : List SinkWrite) : Worker × Except AuditError Unit :=
  let wrote := writeFlushed w.inner.buf req.bytes calls
  let disk := w.disk.append w.inner.file wrote.out
  if wrote.ok then
    let inner := { w.inner with
      buf := wrote.buf
      bytesWritten := saturatingAdd w.inner.bytesWritten req.bytes.length }
    match req.fsync, os.sync with
    | true, some source => (⟨disk, inner⟩, .error (.fsync cfg.path source))
    | _, _ => (⟨disk, inner⟩, .ok ())
  else (⟨disk, { w.inner with buf := wrote.buf }⟩, .error (.write cfg.path))

/-- `perform_write`. -/
def performWrite (cfg : Config) (w : Worker) (req : Request) (os : Os) :
    Worker × Except AuditError Unit :=
  match checkRotation cfg w os with
  | (w', .error e) => (w', .error e)
  | (w', .ok calls) => appendRecord cfg w' req os calls

abbrev Served := Request × Except AuditError Unit

/-- The record's reply was `Ok`. -/
def acknowledged (served : Served) : Bool :=
  match served.2 with
  | .ok _ => true
  | .error _ => false

structure System where
  worker : Worker
  served : List Served       -- in request order

/-- The worker loop on a `Write` request. -/
def step (cfg : Config) (s : System) (a : Request × Os) : Option System :=
  let written := performWrite cfg s.worker a.1 a.2
  some ⟨written.1, s.served ++ [(a.1, written.2)]⟩

/-- The worker as `AuditWriter::open` starts it on a file at the active path. -/
def System.opened (disk : Disk) (file : Nat) : System :=
  ⟨⟨disk, ⟨file, [], (disk.content file).length⟩⟩, []⟩

/-- **Acknowledged records are lines of the log.**  What the run has added to the
    complete lines of the log are the lines of some of the requests, in request
    order, each once; the acknowledged ones are among them. -/
def Durable (initial : Disk) (s : System) : Prop :=
  ∃ landed : List Served, landed.Sublist s.served ∧
    (s.served.filter acknowledged).Sublist landed ∧
    s.worker.disk.lines = initial.lines ++ landed.map fun served => served.1.bytes

/-! ## What one request does to the files -/

namespace Disk

variable {disk : Disk} {inode : Nat} {bytes : Bytes}

@[simp] theorem inodes_append : (disk.append inode bytes).inodes = disk.inodes := rfl

@[simp] theorem content_append_self :
    (disk.append inode bytes).content inode = disk.content inode ++ bytes := by
  simp [append]

theorem content_append_of_ne {i : Nat} (h : i ≠ inode) :
    (disk.append inode bytes).content i = disk.content i := by
  simp [append, h]

@[simp] theorem append_nil : disk.append inode [] = disk := by
  simp [append]

theorem append_append (bytes' : Bytes) :
    (disk.append inode bytes).append inode bytes' = disk.append inode (bytes ++ bytes') := by
  simp only [append, mk.injEq, and_true]
  funext i
  split
  · rw [List.append_assoc]
  · rfl

theorem rename_of_not_exists {dst : String} (h : disk.nameExists dst = false) :
    disk.rename inode dst =
      { disk with rotated := disk.rotated ++ [(dst, inode)], active := none } := by
  have hfilter : disk.rotated.filter (fun file => file.1 != dst) = disk.rotated := by
    rw [List.filter_eq_self]
    intro file hfile
    rw [nameExists, List.any_eq_false] at h
    simpa using h file hfile
  simp [rename, hfilter]

/-- A rename keeps the reading order. -/
theorem inodes_rename {dst : String} (h : disk.nameExists dst = false)
    (hactive : disk.active = some inode) : (disk.rename inode dst).inodes = disk.inodes := by
  simp [rename_of_not_exists h, inodes, hactive]

theorem inodes_create (hactive : disk.active = none) :
    disk.create.inodes = disk.inodes ++ [disk.nextInode] := by
  simp [create, inodes, hactive]

theorem content_create_of_lt {i : Nat} (h : i < disk.nextInode) :
    disk.create.content i = disk.content i := by
  have hne : i ≠ disk.nextInode := by omega
  simp [create, hne]

@[simp] theorem content_create_fresh : disk.create.content disk.nextInode = [] := by
  simp [create]

end Disk

theorem writeFlushed_of_ok {buf bytes : Bytes} {calls : List SinkWrite}
    (hok : (writeFlushed buf bytes calls).ok = true) :
    (writeFlushed buf bytes calls).out = buf ++ bytes ∧
      (writeFlushed buf bytes calls).buf = [] := by
  unfold writeFlushed at hok ⊢
  by_cases hwrote : (writeAll DEFAULT_BUF_SIZE buf bytes calls).ok = true
  · simp only [hwrote, if_true] at hok ⊢
    have hnil := flushBuf_ok_iff.mp hok
    have hflush := flushBuf_stream (writeAll DEFAULT_BUF_SIZE buf bytes calls).buf
      (writeAll DEFAULT_BUF_SIZE buf bytes calls).rest
    rw [hnil, List.append_nil] at hflush
    rw [hflush, writeAll_of_ok (by decide) hwrote]
    exact ⟨rfl, hnil⟩
  · simp only [hwrote] at hok
    exact absurd hok hwrote

/-- The record is left out of the stream or is in it as a whole. -/
theorem writeFlushed_stream {buf bytes : Bytes} {calls : List SinkWrite}
    (hcut : directCut DEFAULT_BUF_SIZE buf bytes calls = false) :
    (writeFlushed buf bytes calls).out ++ (writeFlushed buf bytes calls).buf = buf ∨
      (writeFlushed buf bytes calls).out ++ (writeFlushed buf bytes calls).buf =
        buf ++ bytes := by
  unfold writeFlushed
  by_cases hwrote : (writeAll DEFAULT_BUF_SIZE buf bytes calls).ok = true
  · right
    simp only [hwrote, if_true]
    rw [List.append_assoc, flushBuf_stream, writeAll_of_ok (by decide) hwrote]
  · left
    simp only [hwrote]
    exact writeAll_of_not_ok (by simpa using hwrote) hcut

/-- One empty file has been added at the end of the reading order. -/
structure Disk.Grown (disk disk' : Disk) : Prop where
  inodes_eq : disk'.inodes = disk.inodes ++ [disk.nextInode]
  content_eq : ∀ i < disk.nextInode, disk'.content i = disk.content i
  fresh : disk'.content disk.nextInode = []
  nextInode_eq : disk'.nextInode = disk.nextInode + 1

theorem Disk.grown_create_rename {disk : Disk} {inode : Nat} {dst : String}
    (hfree : disk.nameExists dst = false) (hactive : disk.active = some inode) :
    disk.Grown (disk.rename inode dst).create where
  inodes_eq := by
    rw [inodes_create rfl, inodes_rename hfree hactive]
    rfl
  content_eq := fun _ hi => content_create_of_lt hi
  fresh := content_create_fresh
  nextInode_eq := rfl

/-- A rotation that fails has renamed at most, and may leave an empty file behind. -/
theorem rotateFile_error {path : String} {disk disk' : Disk} {os : Os} {e : AuditError}
    (hfree : disk.nameExists (uniqueRotatedPath disk path os.now) = false)
    (h : rotateFile path disk os = (disk', .error e)) :
    (disk'.inodes = disk.inodes ∧ disk'.content = disk.content ∧
      disk'.nextInode = disk.nextInode) ∨ disk.Grown disk' := by
  unfold rotateFile at h
  split at h
  · cases h
    exact .inl ⟨rfl, rfl, rfl⟩
  · cases h
    exact .inl ⟨rfl, rfl, rfl⟩
  · rename_i inode hactive _
    split at h
    · cases h
      exact .inl ⟨Disk.inodes_rename hfree hactive, rfl, rfl⟩
    · split at h
      · cases h
      · cases h
        exact .inr (Disk.grown_create_rename hfree hactive)
      · cases h
        exact .inr (Disk.grown_create_rename hfree hactive)

theorem rotateFile_ok {path : String} {disk disk' : Disk} {os : Os} {file : Nat}
    (hfree : disk.nameExists (uniqueRotatedPath disk path os.now) = false)
    (h : rotateFile path disk os = (disk', .ok file)) :
    file = disk.nextInode ∧ disk'.active = some file ∧ disk.Grown disk' := by
  unfold rotateFile at h
  split at h
  · cases h
  · cases h
  · rename_i inode hactive _
    split at h
    · cases h
    · split at h
      · cases h
        exact ⟨rfl, rfl, Disk.grown_create_rename hfree hactive⟩
      · cases h
      · cases h

theorem nodup_of_grown {disk disk' : Disk} (hgrown : disk.Grown disk')
    (hnodup : disk.inodes.Nodup) (hlt : ∀ i ∈ disk.inodes, i < disk.nextInode) :
    disk'.inodes.Nodup := by
  rw [hgrown.inodes_eq, List.nodup_append]
  refine ⟨hnodup, List.nodup_singleton _, ?_⟩
  intro i hi j hj
  rw [List.mem_singleton.mp hj]
  have := hlt i hi
  omega

theorem lt_next_of_grown {disk disk' : Disk} (hgrown : disk.Grown disk')
    (hlt : ∀ i ∈ disk.inodes, i < disk.nextInode) : ∀ i ∈ disk'.inodes, i < disk'.nextInode := by
  intro i hi
  rw [hgrown.inodes_eq] at hi
  rw [hgrown.nextInode_eq]
  rcases List.mem_append.mp hi with hi | hi
  · have := hlt i hi
    omega
  · rw [List.mem_singleton.mp hi]
    omega

/-! ## The account of a run

The files before the worker's own are finished, those after it are empty, and its
own file is a block of lines with a tail that the buffer completes. -/

/-- `done` and `tail` make up the worker's file, `landed` are the requests whose
    lines are complete on disk, `pending` those that end in the buffer. -/
structure Account (cfg : Config) (initial : Disk) (w : Worker) (served : List Served)
    (older newer : List Nat) (done : List Bytes) (tail : Bytes)
    (landed pending : List Served) : Prop where
  inodes_eq : w.disk.inodes = older ++ w.inner.file :: newer
  nodup : w.disk.inodes.Nodup
  lt_next : ∀ i ∈ w.disk.inodes, i < w.disk.nextInode
  newer_empty : ∀ i ∈ newer, w.disk.content i = []
  settled : rotationDue cfg w.inner = false → newer = []
  flushed : rotationDue cfg w.inner = true → w.inner.buf = []
  content_eq : w.disk.content w.inner.file = done.flatten ++ tail
  done_lines : ∀ line ∈ done, IsLine LF line
  tail_open : LF ∉ tail
  stream_eq : tail ++ w.inner.buf = (pending.map fun served => served.1.bytes).flatten
  lines_eq : (older.flatMap fun i => terminated LF (w.disk.content i)) ++ done =
    initial.lines ++ landed.map fun served => served.1.bytes
  sublist : (landed ++ pending).Sublist served
  acked : (served.filter acknowledged).Sublist landed

def Inv (cfg : Config) (initial : Disk) (w : Worker) (served : List Served) : Prop :=
  ∃ older newer done tail landed pending,
    Account cfg initial w served older newer done tail landed pending

section

variable {cfg : Config} {initial : Disk} {w : Worker} {served : List Served}

theorem isLine_of_mem_map {requests : List Served} {line : Bytes}
    (h : line ∈ requests.map fun served => served.1.bytes) : IsLine LF line := by
  obtain ⟨request, -, rfl⟩ := List.mem_map.mp h
  exact request.1.isLine

/-- The complete lines on disk are those that have landed. -/
theorem lines_of_account {older newer : List Nat} {done : List Bytes} {tail : Bytes}
    {landed pending : List Served}
    (acc : Account cfg initial w served older newer done tail landed pending) :
    w.disk.lines = initial.lines ++ landed.map fun served => served.1.bytes := by
  have hown : terminated LF (w.disk.content w.inner.file) = done := by
    rw [acc.content_eq, terminated_flatten_tail acc.done_lines acc.tail_open]
  have hnewer : (newer.flatMap fun i => terminated LF (w.disk.content i)) = [] := by
    rw [List.flatMap_eq_nil_iff]
    intro i hi
    rw [acc.newer_empty i hi, terminated_nil]
  rw [Disk.lines, acc.inodes_eq, List.flatMap_append, List.flatMap_cons, hown, hnewer,
    List.append_nil, acc.lines_eq]

/-- The account says where the acknowledged records are. -/
theorem durable_of_inv (h : Inv cfg initial w served) : Durable initial ⟨w, served⟩ := by
  obtain ⟨older, newer, done, tail, landed, pending, acc⟩ := h
  exact ⟨landed, (List.sublist_append_left landed pending).trans acc.sublist, acc.acked,
    lines_of_account acc⟩

/-- With an empty buffer nothing is pending, and the file ends with a line. -/
theorem pending_nil_of_flushed {older newer : List Nat} {done : List Bytes} {tail : Bytes}
    {landed pending : List Served}
    (acc : Account cfg initial w served older newer done tail landed pending)
    (hbuf : w.inner.buf = []) : pending = [] ∧ tail = [] := by
  have hstream := acc.stream_eq
  rw [hbuf, List.append_nil] at hstream
  have hopen : LF ∉ (pending.map fun served => served.1.bytes).flatten := by
    rw [← hstream]
    exact acc.tail_open
  have hnil := lines_eq_nil_of_not_mem (fun line hline => isLine_of_mem_map hline) hopen
  refine ⟨List.map_eq_nil_iff.mp hnil, ?_⟩
  rw [hstream, hnil, List.flatten_nil]

theorem filter_concat_refused (served : List Served) (req : Request) (e : AuditError) :
    (served ++ [((req, .error e) : Served)]).filter acknowledged =
      served.filter acknowledged := by
  simp [List.filter_append, acknowledged]

theorem inv_refused (h : Inv cfg initial w served) (req : Request) (e : AuditError) :
    Inv cfg initial w (served ++ [(req, .error e)]) := by
  obtain ⟨older, newer, done, tail, landed, pending, acc⟩ := h
  refine ⟨older, newer, done, tail, landed, pending, { acc with sublist := ?_, acked := ?_ }⟩
  · exact acc.sublist.trans (List.sublist_append_left served _)
  · rw [filter_concat_refused]
    exact acc.acked

/-- A failed rotation leaves the worker with its file, and empty files behind it. -/
theorem inv_rotation_failed (h : Inv cfg initial w served)
    (hdue : rotationDue cfg w.inner = true) {os : Os}
    (hfree : w.disk.nameExists (uniqueRotatedPath w.disk cfg.path os.now) = false)
    {disk : Disk} {e : AuditError} (hrotate : rotateFile cfg.path w.disk os = (disk, .error e)) :
    Inv cfg initial { w with disk := disk } served := by
  obtain ⟨older, newer, done, tail, landed, pending, acc⟩ := h
  have hsettled (files : List Nat) : rotationDue cfg w.inner = false → files = [] := by
    rw [hdue]
    intro hcontra
    cases hcontra
  rcases rotateFile_error hfree hrotate with ⟨hinodes, hcontent, hnext⟩ | hgrown
  · refine ⟨older, newer, done, tail, landed, pending, { acc with
      inodes_eq := ?_, nodup := ?_, lt_next := ?_, newer_empty := ?_, content_eq := ?_,
      lines_eq := ?_ }⟩
    · rw [hinodes, acc.inodes_eq]
    · rw [hinodes]
      exact acc.nodup
    · rw [hinodes, hnext]
      exact acc.lt_next
    · rw [hcontent]
      exact acc.newer_empty
    · rw [hcontent]
      exact acc.content_eq
    · rw [hcontent]
      exact acc.lines_eq
  · have hkept (i : Nat) (hi : i ∈ w.disk.inodes) : disk.content i = w.disk.content i :=
      hgrown.content_eq i (acc.lt_next i hi)
    have hmem (i : Nat) (hi : i ∈ older ++ w.inner.file :: newer) : i ∈ w.disk.inodes := by
      rw [acc.inodes_eq]
      exact hi
    refine ⟨older, newer ++ [w.disk.nextInode], done, tail, landed, pending, { acc with
      inodes_eq := ?_, nodup := ?_, lt_next := ?_, newer_empty := ?_, settled := hsettled _,
      content_eq := ?_, lines_eq := ?_ }⟩
    · rw [hgrown.inodes_eq, acc.inodes_eq]
      simp
    · exact nodup_of_grown hgrown acc.nodup acc.lt_next
    · exact lt_next_of_grown hgrown acc.lt_next
    · intro i hi
      rcases List.mem_append.mp hi with hi | hi
      · rw [hkept i (hmem i (by simp [hi]))]
        exact acc.newer_empty i hi
      · rw [List.mem_singleton.mp hi]
        exact hgrown.fresh
    · rw [hkept _ (hmem _ (by simp))]
      exact acc.content_eq
    · rw [← acc.lines_eq]
      congr 1
      apply List.flatMap_congr
      intro i hi
      rw [hkept i (hmem i (by simp [hi]))]

/-- A rotation finishes the worker's file and starts it on an empty one. -/
theorem inv_rotated (h : Inv cfg initial w served) (hdue : rotationDue cfg w.inner = true)
    {os : Os} (hfree : w.disk.nameExists (uniqueRotatedPath w.disk cfg.path os.now) = false)
    {disk : Disk} {file : Nat} (hrotate : rotateFile cfg.path w.disk os = (disk, .ok file)) :
    Inv cfg initial ⟨disk, ⟨file, [], 0⟩⟩ served := by
  obtain ⟨older, newer, done, tail, landed, pending, acc⟩ := h
  obtain ⟨rfl, hactive, hgrown⟩ := rotateFile_ok hfree hrotate
  have hkept (i : Nat) (hi : i ∈ w.disk.inodes) : disk.content i = w.disk.content i :=
    hgrown.content_eq i (acc.lt_next i hi)
  obtain ⟨rfl, rfl⟩ := pending_nil_of_flushed acc (acc.flushed hdue)
  refine ⟨w.disk.inodes, [], [], [], landed, [], ?_⟩
  constructor
  · exact hgrown.inodes_eq
  · exact nodup_of_grown hgrown acc.nodup acc.lt_next
  · exact lt_next_of_grown hgrown acc.lt_next
  · intro i hi
    cases hi
  · intro _
    rfl
  · intro _
    rfl
  · exact hgrown.fresh
  · intro line hline
    cases hline
  · intro hmem
    cases hmem
  · rfl
  · rw [List.append_nil, ← lines_of_account acc, Disk.lines]
    apply List.flatMap_congr
    intro i hi
    rw [hkept i hi]
  · exact acc.sublist
  · exact acc.acked

/-- **A write to the worker's file.**  What reaches the file and the buffer left
    behind continue the stream, by the record or by nothing; an acknowledged
    record has gone through the buffer. -/
theorem inv_written (h : Inv cfg initial w served) (hdue : rotationDue cfg w.inner = false)
    (entry : Served) (accepted : List Served) (haccepted : accepted.Sublist [entry])
    (out buf : Bytes)
    (hstream : out ++ buf =
      w.inner.buf ++ (accepted.map fun served => served.1.bytes).flatten)
    (hacked : acknowledged entry = true → buf = [] ∧ accepted = [entry])
    (bytesWritten : Nat)
    (hflushed : rotationDue cfg ⟨w.inner.file, buf, bytesWritten⟩ = true → buf = []) :
    Inv cfg initial ⟨w.disk.append w.inner.file out, ⟨w.inner.file, buf, bytesWritten⟩⟩
      (served ++ [entry]) := by
  obtain ⟨older, newer, done, tail, landed, pending, acc⟩ := h
  obtain rfl : newer = [] := acc.settled hdue
  have hown : w.inner.file ∉ older := by
    have hnodup := acc.nodup
    rw [acc.inodes_eq, List.nodup_append] at hnodup
    intro hmem
    exact hnodup.2.2 _ hmem _ (by simp) rfl
  -- cut the stream where the disk ends
  have hcut : (tail ++ out) ++ buf =
      ((pending ++ accepted).map fun served => served.1.bytes).flatten := by
    rw [List.append_assoc, hstream, ← List.append_assoc, acc.stream_eq]
    simp
  obtain ⟨done', rest, tail', hsplit, hdone', htail', hrest⟩ :=
    exists_cut (fun line hline => isLine_of_mem_map hline) hcut
  obtain ⟨landed', pending', haccounted, rfl, rfl⟩ := List.map_eq_append_iff.mp hsplit
  refine ⟨older, [], done ++ landed'.map fun served => served.1.bytes, tail', landed ++ landed',
    pending', ?_⟩
  constructor
  · exact acc.inodes_eq
  · exact acc.nodup
  · exact acc.lt_next
  · intro i hi
    cases hi
  · intro _
    rfl
  · exact hflushed
  · rw [Disk.content_append_self, acc.content_eq, List.append_assoc, hdone', List.flatten_append,
      List.append_assoc]
  · intro line hline
    rcases List.mem_append.mp hline with hline | hline
    · exact acc.done_lines line hline
    · exact isLine_of_mem_map hline
  · exact htail'
  · exact hrest
  · have holder : (older.flatMap fun i => terminated LF
        ((w.disk.append w.inner.file out).content i)) =
          older.flatMap fun i => terminated LF (w.disk.content i) := by
      apply List.flatMap_congr
      intro i hi
      rw [Disk.content_append_of_ne]
      intro heq
      exact hown (heq ▸ hi)
    rw [holder, ← List.append_assoc, acc.lines_eq, List.map_append, List.append_assoc]
  · rw [List.append_assoc, ← haccounted, ← List.append_assoc]
    exact acc.sublist.append haccepted
  · by_cases hok : acknowledged entry = true
    · obtain ⟨rfl, rfl⟩ := hacked hok
      -- nothing is left in the buffer, so all of the stream has landed
      have hnil : pending' = [] := by
        have hopen : LF ∉ (pending'.map fun served => served.1.bytes).flatten := by
          rw [← hrest, List.append_nil]
          exact htail'
        exact List.map_eq_nil_iff.mp
          (lines_eq_nil_of_not_mem (fun line hline => isLine_of_mem_map hline) hopen)
      rw [hnil, List.append_nil] at haccounted
      rw [List.filter_append, ← haccounted, List.filter_cons_of_pos hok, List.filter_nil,
        ← List.append_assoc]
      exact (acc.acked.trans (List.sublist_append_left landed pending)).append
        (List.Sublist.refl [entry])
    · rw [List.filter_append, List.filter_cons_of_neg hok, List.filter_nil, List.append_nil]
      exact acc.acked.trans (List.sublist_append_left landed landed')

/-! ## Runs -/

/-- One of the names that a rotation tries is free. -/
def nameFree (disk : Disk) (path : String) (now : OffsetDateTime) : Bool :=
  (candidates (rotatedPath path now)).any fun name => !disk.nameExists name

theorem not_exists_uniqueRotatedPath {disk : Disk} {path : String} {now : OffsetDateTime}
    (h : nameFree disk path now = true) :
    disk.nameExists (uniqueRotatedPath disk path now) = false := by
  rw [nameFree, List.any_eq_true] at h
  obtain ⟨name, hname⟩ := Option.isSome_iff_exists.mp (List.find?_isSome.mpr h)
  have hfree := List.find?_some hname
  rw [uniqueRotatedPath, hname, Option.getD_some]
  simpa using hfree

/-- No record that bypasses the buffer is cut, and a rotation finds a free name. -/
def uncut (cfg : Config) (s : System) (a : Request × Os) : Bool :=
  !directCut DEFAULT_BUF_SIZE s.worker.inner.buf a.1.bytes a.2.writes &&
    (!rotationDue cfg s.worker.inner || nameFree s.worker.disk cfg.path a.2.now)

theorem inv_appendRecord (h : Inv cfg initial w served)
    (hdue : rotationDue cfg w.inner = false) {req : Request} {os : Os} {calls : List SinkWrite}
    (hcut : directCut DEFAULT_BUF_SIZE w.inner.buf req.bytes calls = false) {w' : Worker}
    {reply : Except AuditError Unit} (hwrite : appendRecord cfg w req os calls = (w', reply)) :
    Inv cfg initial w' (served ++ [(req, reply)]) := by
  unfold appendRecord at hwrite
  by_cases hok : (writeFlushed w.inner.buf req.bytes calls).ok = true
  · obtain ⟨hout, hbuf⟩ := writeFlushed_of_ok hok
    have hinv (reply : Except AuditError Unit) := inv_written h hdue (req, reply) [(req, reply)]
      (List.Sublist.refl _) (w.inner.buf ++ req.bytes) [] (by simp) (fun _ => ⟨rfl, rfl⟩)
      (saturatingAdd w.inner.bytesWritten req.bytes.length) (fun _ => rfl)
    simp only [hok, if_true, hout, hbuf] at hwrite
    split at hwrite
    · cases hwrite
      exact hinv _
    · cases hwrite
      exact hinv _
  · simp only [hok] at hwrite
    cases hwrite
    have hsame : rotationDue cfg ⟨w.inner.file,
        (writeFlushed w.inner.buf req.bytes calls).buf, w.inner.bytesWritten⟩ = false := hdue
    have hflushed : rotationDue cfg ⟨w.inner.file,
        (writeFlushed w.inner.buf req.bytes calls).buf, w.inner.bytesWritten⟩ = true →
          (writeFlushed w.inner.buf req.bytes calls).buf = [] := by
      rw [hsame]
      intro hcontra
      cases hcontra
    have hrefused (accepted : List Served) :
        acknowledged (req, .error (.write cfg.path)) = true →
          (writeFlushed w.inner.buf req.bytes calls).buf = [] ∧
            accepted = [(req, .error (.write cfg.path))] := by
      intro hcontra
      cases hcontra
    rcases writeFlushed_stream hcut with hstream | hstream
    · exact inv_written h hdue _ [] (List.nil_sublist _) _ _ (by simpa using hstream)
        (hrefused []) _ hflushed
    · exact inv_written h hdue _ [(req, .error (.write cfg.path))] (List.Sublist.refl _) _ _
        (by simpa using hstream) (hrefused _) _ hflushed

theorem inv_step (s : System) (a : Request × Os) (t : System)
    (h : Inv cfg initial s.worker s.served) (hok : uncut cfg s a = true)
    (hstep : step cfg s a = some t) : Inv cfg initial t.worker t.served := by
  cases hstep
  simp only [uncut, Bool.and_eq_true, Bool.not_eq_true', Bool.or_eq_true] at hok
  obtain ⟨hcut, hname⟩ := hok
  unfold performWrite checkRotation
  by_cases hdue : rotationDue cfg s.worker.inner = true
  · rw [if_pos hdue]
    have hfree := not_exists_uniqueRotatedPath (hname.resolve_left (by simp [hdue]))
    obtain ⟨older, newer, done, tail, landed, pending, acc⟩ := id h
    have hbuf := acc.flushed hdue
    rcases hrotate : rotateFile cfg.path s.worker.disk a.2 with ⟨disk, _ | file⟩
    · exact inv_refused (inv_rotation_failed h hdue hfree hrotate) _ _
    · have hrotated := inv_rotated h hdue hfree hrotate
      have hnew : rotationDue cfg ⟨file, [], 0⟩ = false := by
        simp only [rotationDue, Bool.and_eq_true, decide_eq_true_eq] at hdue
        simp only [rotationDue, Bool.and_eq_false_iff, decide_eq_false_iff_not]
        omega
      rw [hbuf] at hcut ⊢
      simp only [flushBuf_nil, Disk.append_nil]
      exact inv_appendRecord hrotated hnew hcut rfl
  · rw [if_neg hdue]
    exact inv_appendRecord h (by simpa using hdue) hcut rfl

end

/-- A directory as a worker finds it: each name has an inode of its own. -/
structure Disk.WellFormed (disk : Disk) (file : Nat) : Prop where
  active_eq : disk.active = some file
  nodup : disk.inodes.Nodup
  lt_next : ∀ i ∈ disk.inodes, i < disk.nextInode

/-- The file is empty or ends with a line feed. -/
def endsWithLine (bytes : Bytes) : Bool := bytes.getLast?.all fun b => b == LF

theorem exists_lines_of_endsWithLine {bytes : Bytes} (h : endsWithLine bytes = true) :
    ∃ lines : List Bytes, (∀ line ∈ lines, IsLine LF line) ∧ bytes = lines.flatten := by
  obtain ⟨lines, tail, hlines, htail, rfl⟩ := exists_lines_tail LF bytes
  refine ⟨lines, hlines, ?_⟩
  by_cases hnil : tail = []
  · rw [hnil, List.append_nil]
  · have hlast : tail.getLast hnil = LF := by
      simpa [endsWithLine, List.getLast?_append, List.getLast?_eq_some_getLast hnil] using h
    exact absurd (hlast ▸ List.getLast_mem hnil) htail

theorem inv_opened {cfg : Config} {disk : Disk} {file : Nat} (hdisk : disk.WellFormed file)
    (hend : endsWithLine (disk.content file) = true) :
    Inv cfg disk (System.opened disk file).worker (System.opened disk file).served := by
  obtain ⟨lines, hlines, hcontent⟩ := exists_lines_of_endsWithLine hend
  have hinodes : disk.inodes = disk.rotated.map Prod.snd ++ [file] := by
    rw [Disk.inodes, hdisk.active_eq]
    rfl
  refine ⟨disk.rotated.map Prod.snd, [], lines, [], [], [], ?_⟩
  constructor
  · exact hinodes
  · exact hdisk.nodup
  · exact hdisk.lt_next
  · intro i hi
    cases hi
  · intro _
    rfl
  · intro _
    rfl
  · rw [List.append_nil]
    exact hcontent
  · exact hlines
  · intro hmem
    cases hmem
  · rfl
  · have hown : terminated LF (disk.content file) = lines := by
      rw [hcontent, terminated_flatten hlines]
    rw [List.map_nil, List.append_nil, Disk.lines, hinodes, List.flatMap_append,
      List.flatMap_singleton, hown]
    rfl
  · exact List.Sublist.refl []
  · exact List.Sublist.refl []

/-- **Acknowledged records are durable lines** in every run in which no record that
    bypasses the buffer is cut, from a file that ends with a line. -/
theorem acknowledged_durable_of_uncut (cfg : Config) (disk : Disk) (file : Nat)
    (hdisk : disk.WellFormed file) (hend : endsWithLine (disk.content file) = true)
    (labels : List (Request × Os)) (s : System)
    (huncut : AllSteps (step cfg) (fun s a => uncut cfg s a) (.opened disk file) labels)
    (hrun : run (step cfg) (.opened disk file) labels = some s) : Durable disk s := by
  have hinv : Inv cfg disk s.worker s.served :=
    invariant_of_allSteps inv_step (inv_opened hdisk hend) huncut hrun
  exact durable_of_inv hinv

/-- The write request for a record's text. -/
def Request.ofText (text : Bytes) (h : LF ∉ text) : Request :=
  ⟨text ++ [LF], false, text, h, rfl⟩

/-- A directory with an empty active file. -/
def emptyDisk : Disk := ⟨fun _ => [], 1, [], some 0⟩

theorem emptyDisk_wellFormed : emptyDisk.WellFormed 0 :=
  ⟨rfl, by decide, by decide⟩

/-- System calls that succeed, but for the given calls of `write`. -/
def osWith (writes : List SinkWrite) : Os where
  now := ⟨2026, 4, 7, 14, 22, 1, 0⟩
  rename := none
  openFresh := none
  lock := .locked
  writes := writes
  sync := none

/-- A failed flush, two acknowledged records, a rotation and one more record. -/
def flakyRun : List (Request × Os) :=
  [(.ofText [97, 97] (by decide), osWith [.accept 1, .fail]),
   (.ofText [98, 98] (by decide), osWith [.accept 2]),
   (.ofText [99, 99] (by decide), osWith []),
   (.ofText [100] (by decide), osWith [.interrupted])]

theorem acknowledged_durable_flakyRun :
    ∃ s, run (step ⟨"audit.jsonl", 4⟩) (.opened emptyDisk 0) flakyRun = some s ∧
      s.served.map acknowledged = [false, true, true, true] ∧ Durable emptyDisk s := by
  refine ⟨_, rfl, by decide +kernel, ?_⟩
  exact acknowledged_durable_of_uncut ⟨"audit.jsonl", 4⟩ emptyDisk 0 emptyDisk_wellFormed
    (by decide) flakyRun _ (by decide +kernel) rfl

/-! ## A record cut on its way to the file -/

theorem writeFlushed_no_calls (bytes : Bytes) :
    writeFlushed [] bytes [] = ⟨bytes, [], true, []⟩ := by
  rw [writeFlushed, writeAll_nil]
  by_cases hfits : bytes.length < DEFAULT_BUF_SIZE
  · simp [hfits, flushBuf_no_calls]
  · simp [hfits, push, flushBuf_nil]

/-- A long record goes to the file directly. -/
theorem writeFlushed_of_cut {bytes : Bytes} {calls : List SinkWrite}
    (hcut : directCut DEFAULT_BUF_SIZE [] bytes calls = true) :
    ∃ n, 0 < n ∧ n < bytes.length ∧ (writeFlushed [] bytes calls).out = bytes.take n ∧
      (writeFlushed [] bytes calls).buf = [] ∧ (writeFlushed [] bytes calls).ok = false := by
  simp only [directCut, makeRoom_nil, Bool.true_and, Bool.and_eq_true, decide_eq_true_eq] at hcut
  obtain ⟨⟨hlong, hpos⟩, hlt⟩ := hcut
  have hfits : ¬ bytes.length < DEFAULT_BUF_SIZE := by omega
  have hok : (push bytes.length calls).ok = false := by
    rw [Bool.eq_false_iff]
    intro hok
    have := push_ok_iff.mp hok
    omega
  refine ⟨(push bytes.length calls).count, hpos, hlt, ?_⟩
  rw [writeFlushed, writeAll_nil, if_neg hfits]
  simp [hok]

theorem isLine_take_append {cut next : Bytes} (hcut : IsLine LF cut) (hnext : IsLine LF next)
    {n : Nat} (hlt : n < cut.length) : IsLine LF (cut.take n ++ next) := by
  obtain ⟨body, hbody, rfl⟩ := hcut
  obtain ⟨body', hbody', rfl⟩ := hnext
  rw [List.length_append, List.length_singleton] at hlt
  have htake : (body ++ [LF]).take n = body.take n := by
    rw [List.take_append_of_le_length (by omega)]
  refine ⟨body.take n ++ body', ?_, by rw [htake, List.append_assoc]⟩
  intro hmem
  rcases List.mem_append.mp hmem with hmem | hmem
  · exact hbody (List.mem_of_mem_take hmem)
  · exact hbody' hmem

/-- A line appended to the active file is the last line of the log. -/
theorem Disk.lines_append_line {disk : Disk} {file : Nat} (hdisk : disk.WellFormed file)
    (hend : endsWithLine (disk.content file) = true) {line : Bytes} (hline : IsLine LF line) :
    (disk.append file line).lines = disk.lines ++ [line] := by
  obtain ⟨lines, hlines, hcontent⟩ := exists_lines_of_endsWithLine hend
  have hinodes : disk.inodes = disk.rotated.map Prod.snd ++ [file] := by
    rw [Disk.inodes, hdisk.active_eq]
    rfl
  have hnodup := hdisk.nodup
  rw [hinodes, List.nodup_append] at hnodup
  have holder : ((disk.rotated.map Prod.snd).flatMap fun i =>
      terminated LF ((disk.append file line).content i)) =
        (disk.rotated.map Prod.snd).flatMap fun i => terminated LF (disk.content i) := by
    apply List.flatMap_congr
    intro i hi
    rw [Disk.content_append_of_ne (hnodup.2.2 i hi file (by simp))]
  have hown : terminated LF (disk.content file ++ line) =
      terminated LF (disk.content file) ++ [line] := by
    rw [hcontent, terminated_flatten_append hlines, terminated_flatten hlines,
      terminated_line hline]
  rw [Disk.lines, Disk.lines, Disk.inodes_append, hinodes, List.flatMap_append,
    List.flatMap_append, List.flatMap_singleton, List.flatMap_singleton, holder,
    Disk.content_append_self, hown, List.append_assoc]

theorem performWrite_of_not_due {cfg : Config} {w : Worker}
    (hdue : rotationDue cfg w.inner = false) (req : Request) (os : Os) :
    performWrite cfg w req os = appendRecord cfg w req os os.writes := by
  simp [performWrite, checkRotation, hdue]

/-- **A cut record spoils the next one.**  The record acknowledged after it shares
    its line with the part that reached the file. -/
theorem not_durable_of_cut (cfg : Config) (disk : Disk) (file : Nat)
    (hdisk : disk.WellFormed file) (hend : endsWithLine (disk.content file) = true)
    (hdue : rotationDue cfg (System.opened disk file).worker.inner = false)
    (cut next : Request × Os) (hcut : directCut DEFAULT_BUF_SIZE [] cut.1.bytes cut.2.writes)
    (hwrites : next.2.writes = []) (hsync : next.2.sync = none) (s : System)
    (hrun : run (step cfg) (.opened disk file) [cut, next] = some s) : ¬ Durable disk s := by
  obtain ⟨n, hpos, hlt, hout, hbuf, hok⟩ := writeFlushed_of_cut hcut
  have hfirst : performWrite cfg (System.opened disk file).worker cut.1 cut.2 =
      (⟨disk.append file (cut.1.bytes.take n), (System.opened disk file).worker.inner⟩,
        .error (.write cfg.path)) := by
    rw [performWrite_of_not_due hdue]
    simp [appendRecord, System.opened, hout, hbuf, hok]
  have hsecond : performWrite cfg ⟨disk.append file (cut.1.bytes.take n),
      (System.opened disk file).worker.inner⟩ next.1 next.2 =
        (⟨(disk.append file (cut.1.bytes.take n)).append file next.1.bytes,
          ⟨file, [], saturatingAdd (disk.content file).length next.1.bytes.length⟩⟩,
          .ok ()) := by
    have hdue' : rotationDue cfg (Worker.mk (disk.append file (cut.1.bytes.take n))
        (System.opened disk file).worker.inner).inner = false := hdue
    rw [performWrite_of_not_due hdue', hwrites]
    simp [appendRecord, System.opened, writeFlushed_no_calls, hsync]
  simp only [run_cons, run_nil, step, hfirst, Option.bind_some, hsecond, Option.some.injEq] at hrun
  subst hrun
  -- the two records share one line
  have hlines : ((disk.append file (cut.1.bytes.take n)).append file next.1.bytes).lines =
      disk.lines ++ [cut.1.bytes.take n ++ next.1.bytes] := by
    rw [Disk.append_append, Disk.lines_append_line hdisk hend]
    exact isLine_take_append cut.1.isLine next.1.isLine hlt
  rintro ⟨landed, -, hacked, hlanded⟩
  have hone : landed.map (fun served => served.1.bytes) =
      [cut.1.bytes.take n ++ next.1.bytes] := by
    rw [hlines] at hlanded
    exact (List.append_cancel_left hlanded).symm
  obtain ⟨entry, rfl, hentry⟩ := List.map_eq_singleton_iff.mp hone
  have hok : acknowledged (next.1, .ok ()) = true := rfl
  have hmem : (next.1, .ok ()) = entry := by
    simpa [System.opened, List.filter_cons, hok, acknowledged] using hacked
  subst hmem
  have hlength := congrArg List.length hentry
  rw [List.length_append, List.length_take] at hlength
  simp only at hlength
  omega

/-- A record of `n + 1` bytes. -/
def fillRequest (n : Nat) : Request := .ofText (List.replicate n 97) (by
  intro hmem
  cases List.eq_of_mem_replicate hmem)

theorem directCut_fillRequest {n : Nat} (h : DEFAULT_BUF_SIZE ≤ n) :
    directCut DEFAULT_BUF_SIZE [] (fillRequest n).bytes [.accept 1, .fail] = true := by
  have hlength : (fillRequest n).bytes.length = n + 1 := by
    simp [fillRequest, Request.ofText]
  have hpos : 0 < DEFAULT_BUF_SIZE := by decide
  have hne : n ≠ 0 := by omega
  have hpush : push (n + 1) [.accept 1, .fail] = ⟨1, false, []⟩ := by
    simp [push, hne]
  simp only [directCut, makeRoom_nil, hlength, hpush, Bool.true_and, Bool.and_eq_true,
    decide_eq_true_eq]
  omega

/-- The disk fills up after one byte of a record of 8193, and the next record is
    acknowledged. -/
theorem acknowledged_record_spoiled :
    ∃ s, run (step ⟨"audit.jsonl", 0⟩) (.opened emptyDisk 0)
        [(fillRequest DEFAULT_BUF_SIZE, osWith [.accept 1, .fail]),
         (.ofText [98] (by decide), osWith [])] = some s ∧ ¬ Durable emptyDisk s := by
  have hcut := directCut_fillRequest (le_refl DEFAULT_BUF_SIZE)
  generalize fillRequest DEFAULT_BUF_SIZE = long at hcut
  refine ⟨_, rfl, ?_⟩
  exact not_durable_of_cut ⟨"audit.jsonl", 0⟩ emptyDisk 0 emptyDisk_wellFormed (by decide)
    (by decide) (long, osWith [.accept 1, .fail]) _ hcut rfl rfl _ rfl

end RustyImap.AuditWorker
