import Mathlib.Data.List.DropRight
import Mathlib.Data.List.Infix
import Mathlib.Data.List.Nodup
import RustyImap.SeparatedLines
import RustyImap.ToolName

/-!
# The audit log on disk

Records, the startup self-check and the reader of `rimap-audit` over the bytes of
the active file: `record/`, `writer/self_check.rs`, `reader/mod.rs`.

A file is a byte list.  `serde_json` is not part of the repository: `SerdeJson`
lists the four uses the audit crate makes of it, and `SerdeJson.Lawful` what the
crate relies on.  The fields of a payload that no function below reads are one
component `fields : δ`, of any type: they reach the file through `to_vec` only.

Locks, permissions and failing reads are outside: every file is readable, and the
only read error is text that is not UTF-8.
-/

namespace RustyImap.AuditLog

open RustyImap.SeparatedLines

abbrev Bytes := List UInt8

def LF : UInt8 := 10

def CR : UInt8 := 13

/-- What `read_line` demands of the bytes it appends to its `String`. -/
def validUtf8 (bytes : Bytes) : Bool := bytes.toByteArray.validateUTF8

theorem validUtf8_append {a b : Bytes} (ha : validUtf8 a) (hb : validUtf8 b) :
    validUtf8 (a ++ b) := by
  unfold validUtf8 at ha hb ⊢
  rw [ByteArray.validateUTF8_eq_true_iff] at ha hb ⊢
  rw [List.toByteArray_append]
  exact ha.append hb

theorem validUtf8_LF : validUtf8 [LF] := by decide +kernel

/-! ## Records -/

abbrev Seq := UInt64

namespace Seq

def FIRST : Seq := 1

def MAX : Seq := 18446744073709551615

/-- `saturating_add(1)`. -/
def next (seq : Seq) : Seq := if seq = MAX then MAX else seq + 1

end Seq

/-- A ULID, by its canonical text. -/
structure ProcessId where
  ulid : String
deriving DecidableEq, Repr

inductive Payload (δ : Type) where
  | processStart (previousFileInode : UInt64) (fields : δ)
  | processEnd (fields : δ)
  | auth (account : Option String) (fields : δ)
  | toolStart (account : Option String) (tool : ToolName) (fields : δ)
  | toolEnd (account : Option String) (tool : ToolName) (fields : δ)
  | config (fields : δ)
  | folderPolicy (account : String) (fields : δ)
deriving DecidableEq, Repr

structure AuditRecord (δ : Type) where
  seq : Seq
  ts : Int
  processId : ProcessId
  payload : Payload δ
deriving DecidableEq, Repr

namespace Kind

def PROCESS_START : String := "process_start"
def PROCESS_END : String := "process_end"
def AUTH : String := "auth"
def TOOL_START : String := "tool_start"
def TOOL_END : String := "tool_end"
def CONFIG : String := "config"
def FOLDER_POLICY : String := "folder_policy"

def KNOWN : List String :=
  [PROCESS_START, PROCESS_END, AUTH, TOOL_START, TOOL_END, CONFIG, FOLDER_POLICY]

end Kind

variable {δ σ : Type}

/-- `kind::of`. -/
def Payload.kind : Payload δ → String
  | .processStart .. => Kind.PROCESS_START
  | .processEnd .. => Kind.PROCESS_END
  | .auth .. => Kind.AUTH
  | .toolStart .. => Kind.TOOL_START
  | .toolEnd .. => Kind.TOOL_END
  | .config .. => Kind.CONFIG
  | .folderPolicy .. => Kind.FOLDER_POLICY

structure TailEnvelope where
  seq : Seq
  processId : ProcessId
  kind : String := ""
  previousFileInode : Option UInt64 := none
deriving DecidableEq, Repr

/-- What a record's own line holds under the names of `TailEnvelope`. -/
def AuditRecord.tailEnvelope (record : AuditRecord δ) : TailEnvelope where
  seq := record.seq
  processId := record.processId
  kind := record.payload.kind
  previousFileInode :=
    match record.payload with
    | .processStart inode _ => some inode
    | _ => none

/-! ## The JSON codec -/

/-- `to_vec` and `from_slice` on records, `from_str` on the tail envelope, and
    the string under `kind` of a line that is a JSON object. -/
structure SerdeJson (δ : Type) where
  toVec : AuditRecord δ → Option Bytes
  fromSlice : Bytes → Option (AuditRecord δ)
  tailFromStr : Bytes → Option TailEnvelope
  kindOfValue : Bytes → Option String

/-- A record's text is one non-empty line of UTF-8 (control characters are
    escaped), it reads back as the record, and a text that has begun one object
    and goes on with another is not JSON. -/
structure SerdeJson.Lawful (json : SerdeJson δ) : Prop where
  nonempty {r b} : json.toVec r = some b → b ≠ []
  printable {r b} : json.toVec r = some b → ∀ c ∈ b, 0x20 ≤ c
  utf8 {r b} : json.toVec r = some b → validUtf8 b
  roundTrip {r b} : json.toVec r = some b → json.fromSlice b = some r
  tail {r b} : json.toVec r = some b → json.tailFromStr b = some r.tailEnvelope
  begunTwice {r b r' b' k} : json.toVec r = some b → json.toVec r' = some b' →
    b.take k ≠ [] →
      json.fromSlice (b.take k ++ b') = none ∧ json.kindOfValue (b.take k ++ b') = none

/-- A record that serialises, with its text. -/
structure Written (json : SerdeJson δ) where
  record : AuditRecord δ
  text : Bytes
  toVec_eq : json.toVec record = some text

variable {json : SerdeJson δ}

/-- The bytes `write_record_inner` sends to the worker. -/
def Written.line (w : Written json) : Bytes := w.text ++ [LF]

def logBytes (log : List (Written json)) : Bytes := (log.map Written.line).flatten

def records (log : List (Written json)) : List (AuditRecord δ) := log.map Written.record

/-! ## Errors -/

/-- Both are an `io::Error` of kind `InvalidData`. -/
inductive ReadSource where
  | invalidUtf8
  | malformedJson
deriving DecidableEq, Repr

inductive AuditError where
  | read (path : String) (line : Option Nat) (source : ReadSource)
  | parse
deriving DecidableEq, Repr

/-! ## The startup self-check -/

def MAX_SELF_CHECK_BYTES : Nat := 32 * 1024 * 1024

def MAX_LINE_BYTES : Nat := 1024 * 1024

structure TrailingState where
  lastSeq : Option Seq := none
  lastProcessId : Option ProcessId := none
  lastRecordedInode : Option UInt64 := none
deriving DecidableEq, Repr

/-- The assignments at the end of the scan's loop body. -/
def TrailingState.absorb (st : TrailingState) (envelope : TailEnvelope) : TrailingState where
  lastSeq := some envelope.seq
  lastProcessId := some envelope.processId
  lastRecordedInode :=
    if envelope.kind = Kind.PROCESS_START then envelope.previousFileInode
    else st.lastRecordedInode

/-- `trim_end_matches('\n').trim_end_matches('\r')`. -/
def trimLine (line : Bytes) : Bytes := (line.rdropWhile (· = LF)).rdropWhile (· = CR)

/-- The loop of `read_trailing_state` over the raw lines of the file. -/
def scanTrailing (json : SerdeJson δ) (path : String) :
    List Bytes → TrailingState → Except AuditError TrailingState
  | [], st => .ok st
  | line :: rest, st =>
      if ¬ validUtf8 line then .error (.read path none .invalidUtf8)
      -- an unterminated line ends the scan, whatever it holds
      else if line.getLast? ≠ some LF then .ok st
      else if line.length > MAX_LINE_BYTES then scanTrailing json path rest st
      else
        match json.tailFromStr (trimLine line) with
        | none => scanTrailing json path rest st
        | some envelope => scanTrailing json path rest (st.absorb envelope)

/-- `read_trailing_state`; the file is `none` when it does not exist. -/
def readTrailingState (json : SerdeJson δ) (path : String) :
    Option Bytes → Except AuditError TrailingState
  | none => .ok {}
  | some bytes =>
      if bytes.length = 0 then .ok {}
      else if bytes.length > MAX_SELF_CHECK_BYTES then .ok {}
      else scanTrailing json path (splitKeep LF bytes) {}

/-- A file that does not exist counts as empty. -/
theorem readTrailingState_getD (json : SerdeJson δ) (path : String) (file : Option Bytes) :
    readTrailingState json path file = readTrailingState json path (some (file.getD [])) := by
  cases file <;> rfl

/-! ## The reader -/

/-- Instants are compared, so any scale will do for `ts`. -/
structure Filter where
  since : Option Int := none
  until_ : Option Int := none
  tool : Option String := none
  kind : Option String := none
  process : Option String := none
  account : Option String := none
deriving DecidableEq, Repr

def Payload.toolName : Payload δ → Option String
  | .toolStart _ tool _ => some tool.asStr
  | .toolEnd _ tool _ => some tool.asStr
  | .processStart .. | .processEnd .. | .auth .. | .config .. | .folderPolicy .. => none

def Payload.accountName : Payload δ → Option String
  | .auth account _ => account
  | .toolStart account _ _ => account
  | .toolEnd account _ _ => account
  | .folderPolicy account _ => some account
  | .processStart .. | .processEnd .. | .config .. => none

/-- `Filter::matches`.  A record without an account passes an account filter, a
    record without a tool does not pass a tool filter. -/
def Filter.matches (filter : Filter) (record : AuditRecord δ) : Bool :=
  filter.since.all (fun since => since ≤ record.ts) &&
  filter.until_.all (fun limit => record.ts ≤ limit) &&
  filter.process.all (fun want => record.processId.ulid == want) &&
  filter.kind.all (fun want => record.payload.kind == want) &&
  filter.tool.all (fun want => record.payload.toolName == some want) &&
  filter.account.all fun want => record.payload.accountName.all fun name => name == want

/-- `unknown_kind`. -/
def unknownKind (json : SerdeJson δ) (line : Bytes) : Option String :=
  (json.kindOfValue line).filter fun kind => !Kind.KNOWN.contains kind

/-- `parse_line`. -/
def parseLine (json : SerdeJson δ) (raw : Bytes) : Except AuditError (AuditRecord δ) :=
  match json.fromSlice raw with
  | some record => .ok record
  | none => .error .parse

structure StreamSummary where
  matched : Nat
  skippedUnknownKind : Nat
deriving DecidableEq, Repr

/-- The caller's state behind `on_record` and the summary. -/
structure Progress (σ : Type) where
  seen : σ
  summary : StreamSummary
deriving DecidableEq, Repr

/-- `parse_filter_and_dispatch`. -/
def parseFilterAndDispatch (json : SerdeJson δ) (path : String) (filter : Filter)
    (onRecord : σ → AuditRecord δ → Except AuditError σ)
    (lineNo : Nat) (line : Bytes) (isTrailing : Bool) (p : Progress σ) :
    Except AuditError (Progress σ) :=
  if line.isEmpty then .ok p
  else
    match parseLine json line with
    | .ok record =>
        if filter.matches record then do
          let seen ← onRecord p.seen record
          .ok { seen, summary := { p.summary with matched := p.summary.matched + 1 } }
        else .ok p
    | .error .parse =>
        if (unknownKind json line).isSome then
          .ok { p with summary :=
            { p.summary with skippedUnknownKind := p.summary.skippedUnknownKind + 1 } }
        else if isTrailing then .ok p
        else .error (.read path (some lineNo) .malformedJson)
    | .error other => .error other

/-- What `BufRead::lines` yields for a raw line: the terminator goes, and with it
    one carriage return. -/
def stripTerminator (raw : Bytes) : Bytes :=
  if raw.getLast? = some LF then
    if raw.dropLast.getLast? = some CR then raw.dropLast.dropLast else raw.dropLast
  else raw

/-- The loop of `stream_records`, one line behind the reader: only the last line
    is dispatched as trailing. -/
def streamLoop (json : SerdeJson δ) (path : String) (filter : Filter)
    (onRecord : σ → AuditRecord δ → Except AuditError σ) :
    List Bytes → Option (Nat × Bytes) → Nat → Progress σ → Except AuditError (Progress σ)
  | [], none, _, p => .ok p
  | [], some (prevNo, prevLine), _, p =>
      parseFilterAndDispatch json path filter onRecord prevNo prevLine true p
  | raw :: rest, prev, lineNo, p =>
      if ¬ validUtf8 raw then .error (.read path none .invalidUtf8)
      else do
        let p ←
          match prev with
          | none => .ok p
          | some (prevNo, prevLine) =>
              parseFilterAndDispatch json path filter onRecord prevNo prevLine false p
        streamLoop json path filter onRecord rest (some (lineNo + 1, stripTerminator raw))
          (lineNo + 1) p

/-- One turn of the loop fails, or it holds the line back and goes on. -/
theorem streamLoop_cons (json : SerdeJson δ) (path : String) (filter : Filter)
    (onRecord : σ → AuditRecord δ → Except AuditError σ) (raw : Bytes) (rest : List Bytes)
    (prev : Option (Nat × Bytes)) (n : Nat) (p : Progress σ) :
    (∃ e, streamLoop json path filter onRecord (raw :: rest) prev n p = .error e) ∨
      ∃ p', streamLoop json path filter onRecord (raw :: rest) prev n p =
        streamLoop json path filter onRecord rest (some (n + 1, stripTerminator raw)) (n + 1)
          p' := by
  rw [streamLoop]
  by_cases hvalid : validUtf8 raw
  · rw [if_neg (by simp [hvalid])]
    cases prev with
    | none => exact .inr ⟨p, rfl⟩
    | some prev =>
        simp only [bind, Except.bind]
        cases parseFilterAndDispatch json path filter onRecord prev.1 prev.2 false p with
        | error e => exact .inl ⟨e, rfl⟩
        | ok p' => exact .inr ⟨p', rfl⟩
  · rw [if_pos (by simp [hvalid])]
    exact .inl ⟨_, rfl⟩

/-- `stream_records`. -/
def streamRecords (json : SerdeJson δ) (path : String) (filter : Filter)
    (onRecord : σ → AuditRecord δ → Except AuditError σ) (init : σ) (file : Bytes) :
    Except AuditError (Progress σ) :=
  streamLoop json path filter onRecord (splitKeep LF file) none 0 ⟨init, 0, 0⟩

/-- The callback that keeps every record it is given. -/
def collect (seen : List (AuditRecord δ)) (record : AuditRecord δ) :
    Except AuditError (List (AuditRecord δ)) :=
  .ok (seen ++ [record])

/-- The records on the terminated lines of a file. -/
def completeRecords (json : SerdeJson δ) (file : Bytes) : List (AuditRecord δ) :=
  (splitKeep LF file).filterMap fun raw =>
    if raw.getLast? = some LF then json.fromSlice (stripTerminator raw) else none

/-! ## Lines the writer produced -/

/-- What the scan has gathered after the lines of `log`. -/
def TrailingState.absorbLog (st : TrailingState) (log : List (Written json)) : TrailingState :=
  log.foldl
    (fun st w => if w.line.length ≤ MAX_LINE_BYTES then st.absorb w.record.tailEnvelope else st) st

theorem TrailingState.absorbLog_concat (st : TrailingState) (log : List (Written json))
    (w : Written json) :
    st.absorbLog (log ++ [w]) =
      if w.line.length ≤ MAX_LINE_BYTES then (st.absorbLog log).absorb w.record.tailEnvelope
      else st.absorbLog log := by
  simp [TrailingState.absorbLog, List.foldl_append]

/-- What a collecting reader has gathered after `rs`. -/
def Progress.deliver (filter : Filter) (p : Progress (List (AuditRecord δ)))
    (rs : List (AuditRecord δ)) : Progress (List (AuditRecord δ)) where
  seen := p.seen ++ rs.filter filter.matches
  summary := { p.summary with matched := p.summary.matched + (rs.filter filter.matches).length }

@[simp] theorem Progress.deliver_nil (filter : Filter) (p : Progress (List (AuditRecord δ))) :
    p.deliver filter [] = p := by
  simp [Progress.deliver]

theorem Progress.deliver_append (filter : Filter) (p : Progress (List (AuditRecord δ)))
    (rs rs' : List (AuditRecord δ)) :
    (p.deliver filter rs).deliver filter rs' = p.deliver filter (rs ++ rs') := by
  simp [Progress.deliver, Nat.add_assoc]

@[simp] theorem logBytes_nil : logBytes ([] : List (Written json)) = [] := rfl

@[simp] theorem logBytes_append (log log' : List (Written json)) :
    logBytes (log ++ log') = logBytes log ++ logBytes log' := by
  simp [logBytes]

theorem line_ne_nil (w : Written json) : w.line ≠ [] := by simp [Written.line]

@[simp] theorem logBytes_eq_nil {log : List (Written json)} : logBytes log = [] ↔ log = [] := by
  constructor
  · intro h
    cases log with
    | nil => rfl
    | cons w log =>
        have hline : w.line = [] := (List.append_eq_nil_iff.mp h).1
        exact absurd hline (line_ne_nil w)
  · rintro rfl
    rfl

section Lines

variable (hjson : json.Lawful)
include hjson

theorem LF_notMem_text (w : Written json) : LF ∉ w.text := by
  intro hmem
  exact absurd (hjson.printable w.toVec_eq LF hmem) (by decide)

theorem isLine_line (w : Written json) : IsLine LF w.line :=
  ⟨w.text, LF_notMem_text hjson w, rfl⟩

theorem validUtf8_line (w : Written json) : validUtf8 w.line :=
  validUtf8_append (hjson.utf8 w.toVec_eq) validUtf8_LF

/-- The text is the last thing on the line, so nothing of it is trimmed. -/
theorem CR_notLast (w : Written json) (head : Bytes) : (head ++ w.text).getLast? ≠ some CR := by
  intro hlast
  rw [List.getLast?_append_of_ne_nil _ (hjson.nonempty w.toVec_eq)] at hlast
  have hmem : CR ∈ w.text := List.mem_of_getLast? hlast
  exact absurd (hjson.printable w.toVec_eq CR hmem) (by decide)

theorem trimLine_line (w : Written json) : trimLine w.line = w.text := by
  have hlf : w.line.rdropWhile (· = LF) = w.text := by
    unfold Written.line
    rw [List.rdropWhile_concat_pos _ _ _ (by simp), List.rdropWhile_eq_self_iff]
    intro hne hlast
    exact LF_notMem_text hjson w (of_decide_eq_true hlast ▸ List.getLast_mem hne)
  unfold trimLine
  rw [hlf, List.rdropWhile_eq_self_iff]
  intro hne hlast
  have hcr := CR_notLast hjson w []
  rw [List.nil_append, List.getLast?_eq_some_getLast hne] at hcr
  exact hcr (congrArg some (of_decide_eq_true hlast))

theorem stripTerminator_line (w : Written json) (head : Bytes) :
    stripTerminator (head ++ w.line) = head ++ w.text := by
  have hlast : (head ++ w.line).getLast? = some LF := by simp [Written.line]
  have hdrop : (head ++ w.line).dropLast = head ++ w.text := by
    rw [Written.line, ← List.append_assoc, List.dropLast_concat]
  unfold stripTerminator
  rw [if_pos hlast, hdrop, if_neg (CR_notLast hjson w head)]

theorem splitKeep_logBytes_append (log : List (Written json)) (rest : Bytes) :
    splitKeep LF (logBytes log ++ rest) = log.map Written.line ++ splitKeep LF rest := by
  apply splitKeep_flatten_append
  intro line hmem
  obtain ⟨w, -, rfl⟩ := List.mem_map.mp hmem
  exact isLine_line hjson w

theorem splitKeep_logBytes (log : List (Written json)) :
    splitKeep LF (logBytes log) = log.map Written.line := by
  simpa using splitKeep_logBytes_append hjson log []

/-- One line of the log moves the scan on, by its envelope unless it is too long. -/
theorem scanTrailing_line (path : String) (w : Written json) (rest : List Bytes)
    (st : TrailingState) :
    scanTrailing json path (w.line :: rest) st =
      scanTrailing json path rest
        (if w.line.length ≤ MAX_LINE_BYTES then st.absorb w.record.tailEnvelope else st) := by
  have hvalid := validUtf8_line hjson w
  have hlast : w.line.getLast? = some LF := by simp [Written.line]
  rw [scanTrailing, if_neg (by simp [hvalid]), if_neg (by simp [hlast])]
  by_cases hlong : w.line.length > MAX_LINE_BYTES
  · rw [if_pos hlong, if_neg (by omega)]
  · rw [if_neg hlong, if_pos (by omega), trimLine_line hjson, hjson.tail w.toVec_eq]

theorem scanTrailing_log (path : String) (log : List (Written json)) (rest : List Bytes)
    (st : TrailingState) :
    scanTrailing json path (log.map Written.line ++ rest) st =
      scanTrailing json path rest (st.absorbLog log) := by
  induction log generalizing st with
  | nil => rfl
  | cons w log ih =>
      rw [List.map_cons, List.cons_append, scanTrailing_line hjson, ih]
      rfl

/-- **The self-check on a log with a torn tail.**  A tail that is not text is an
    error, whatever the lines before it hold. -/
theorem readTrailingState_torn (path : String) (log : List (Written json)) (torn : Bytes)
    (htorn : LF ∉ torn) :
    readTrailingState json path (some (logBytes log ++ torn)) =
      if (logBytes log ++ torn).length > MAX_SELF_CHECK_BYTES then .ok {}
      else if validUtf8 torn then .ok (TrailingState.absorbLog {} log)
      else .error (.read path none .invalidUtf8) := by
  have htail (st : TrailingState) : scanTrailing json path (splitKeep LF torn) st =
      if validUtf8 torn then .ok st else .error (.read path none .invalidUtf8) := by
    by_cases hnil : torn = []
    · subst hnil
      rfl
    · have hlast : torn.getLast? ≠ some LF := fun h => htorn (List.mem_of_getLast? h)
      rw [splitKeep_of_not_mem hnil htorn, scanTrailing, if_pos hlast]
      by_cases hvalid : validUtf8 torn <;> simp [hvalid]
  unfold readTrailingState
  by_cases hzero : (logBytes log ++ torn).length = 0
  · have hnil := List.append_eq_nil_iff.mp (List.length_eq_zero_iff.mp hzero)
    rw [logBytes_eq_nil] at hnil
    obtain ⟨rfl, rfl⟩ := hnil
    rfl
  · simp only [hzero, if_false, splitKeep_logBytes_append hjson, scanTrailing_log hjson, htail]

theorem dispatch_text (path : String) (filter : Filter) (n : Nat) (w : Written json)
    (isTrailing : Bool) (p : Progress (List (AuditRecord δ))) :
    parseFilterAndDispatch json path filter collect n w.text isTrailing p =
      .ok (p.deliver filter [w.record]) := by
  have hne : w.text.isEmpty = false := by simpa using hjson.nonempty w.toVec_eq
  unfold parseFilterAndDispatch parseLine
  rw [hne, hjson.roundTrip w.toVec_eq]
  by_cases hmatch : filter.matches w.record
  · simp [hmatch, collect, Progress.deliver, bind, Except.bind]
  · simp [hmatch, Progress.deliver]

/-- A line that begins one record and goes on with another: fatal, unless it is
    the last. -/
theorem dispatch_merged (path : String) (filter : Filter)
    (onRecord : σ → AuditRecord δ → Except AuditError σ) (n : Nat) (torn w : Written json)
    {k : Nat} (hk : torn.text.take k ≠ []) (isTrailing : Bool) (p : Progress σ) :
    parseFilterAndDispatch json path filter onRecord n (torn.text.take k ++ w.text) isTrailing p =
      if isTrailing then .ok p else .error (.read path (some n) .malformedJson) := by
  obtain ⟨hparse, hkind⟩ := hjson.begunTwice torn.toVec_eq w.toVec_eq hk
  have hne : (torn.text.take k ++ w.text).isEmpty = false := by
    rw [List.isEmpty_eq_false_iff]
    exact List.append_ne_nil_of_left_ne_nil hk _
  unfold parseFilterAndDispatch parseLine unknownKind
  rw [hne, hparse, hkind]
  simp

/-- A record that is held back is as good as delivered. -/
theorem streamLoop_held (path : String) (filter : Filter) (rest : List Bytes) (w : Written json)
    (m n : Nat) (p : Progress (List (AuditRecord δ))) :
    streamLoop json path filter collect rest (some (m, w.text)) n p =
      streamLoop json path filter collect rest none n (p.deliver filter [w.record]) := by
  cases rest with
  | nil => rw [streamLoop, streamLoop, dispatch_text hjson]
  | cons raw rest => simp only [streamLoop, dispatch_text hjson, bind, Except.bind]

theorem streamLoop_log (path : String) (filter : Filter) (log : List (Written json))
    (rest : List Bytes) (n : Nat) (p : Progress (List (AuditRecord δ))) :
    streamLoop json path filter collect (log.map Written.line ++ rest) none n p =
      streamLoop json path filter collect rest none (n + log.length)
        (p.deliver filter (records log)) := by
  induction log generalizing n p with
  | nil => simp [records]
  | cons w log ih =>
      have hvalid := validUtf8_line hjson w
      have hstrip : stripTerminator w.line = w.text := stripTerminator_line hjson w []
      have hnext : n + 1 + log.length = n + (w :: log).length := by simp; omega
      rw [List.map_cons, List.cons_append, streamLoop, if_neg (by simp [hvalid])]
      simp only [bind, Except.bind, hstrip]
      rw [streamLoop_held hjson, ih, Progress.deliver_append, hnext]
      rfl

/-- **The reader on a whole log**: every record that passes the filter, in order. -/
theorem streamRecords_logBytes (path : String) (filter : Filter) (log : List (Written json)) :
    streamRecords json path filter collect [] (logBytes log) =
      .ok (Progress.deliver filter ⟨[], 0, 0⟩ (records log)) := by
  unfold streamRecords
  rw [splitKeep_logBytes hjson, ← List.append_nil (log.map Written.line), streamLoop_log hjson]
  rfl

theorem completeRecords_logBytes (log : List (Written json)) :
    completeRecords json (logBytes log) = records log := by
  have hline (w : Written json) : (if w.line.getLast? = some LF then
      json.fromSlice (stripTerminator w.line) else none) = some w.record := by
    have hstrip : stripTerminator w.line = w.text := stripTerminator_line hjson w []
    rw [if_pos (by simp [Written.line]), hstrip, hjson.roundTrip w.toVec_eq]
  unfold completeRecords records
  rw [splitKeep_logBytes hjson, List.filterMap_map]
  simp only [Function.comp_def, hline]
  exact congrFun List.filterMap_eq_map' log

end Lines

/-! ## A codec given by a table

The texts of finitely many records, as `serde_json` writes them.  The laws hold
as soon as each text begins as a record does and holds no second such beginning:
a text that begins twice is then none of them. -/

def utf8 (text : String) : Bytes := text.toUTF8.data.toList

theorem validUtf8_utf8 (text : String) : validUtf8 (utf8 text) := by
  have hbytes : (utf8 text).toByteArray = text.toUTF8 := by
    ext1
    simp [utf8, List.data_toByteArray]
  unfold validUtf8
  rw [hbytes, ByteArray.validateUTF8_eq_true_iff]
  exact text.isValidUTF8

/-- `seq` is the first field of every record. -/
def recordHead : Bytes := utf8 "\x7b\"seq\":"

def beginsOnce (b : Bytes) : Bool :=
  recordHead.isPrefixOf b && b.tail.tails.all fun rest => !recordHead.isPrefixOf rest

section Table

variable {table : List (AuditRecord δ × String)}

theorem find_text (hdistinct : (table.map fun entry => utf8 entry.2).Nodup) {r : AuditRecord δ}
    {text : String} (hmem : (r, text) ∈ table) :
    table.find? (utf8 ·.2 = utf8 text) = some (r, text) := by
  have hsome : (table.find? (utf8 ·.2 = utf8 text)).isSome := by
    rw [List.find?_isSome]
    exact ⟨(r, text), hmem, by simp⟩
  obtain ⟨found, hfind⟩ := Option.isSome_iff_exists.mp hsome
  have htext : utf8 found.2 = utf8 text := by simpa using List.find?_some hfind
  have hsame := List.inj_on_of_nodup_map hdistinct (List.mem_of_find?_eq_some hfind) hmem htext
  rw [hfind, hsame]

/-- The second beginning stands inside the text. -/
theorem not_beginsOnce_append {b b' : Bytes} {k : Nat} (hk : b.take k ≠ [])
    (hb' : beginsOnce b') : ¬ beginsOnce (b.take k ++ b') := by
  intro honce
  simp only [beginsOnce, Bool.and_eq_true, List.all_eq_true] at honce hb'
  obtain ⟨c, front, hfront⟩ := List.exists_cons_of_ne_nil hk
  have hsuffix : b' ∈ (b.take k ++ b').tail.tails := by
    rw [hfront, List.mem_tails]
    exact List.suffix_append front b'
  have hnone := honce.2 b' hsuffix
  rw [hb'.1] at hnone
  simp at hnone

variable [DecidableEq δ]

def tableJson (table : List (AuditRecord δ × String)) : SerdeJson δ where
  toVec r := (table.find? (·.1 = r)).map fun entry => utf8 entry.2
  fromSlice b := (table.find? (utf8 ·.2 = b)).map (·.1)
  tailFromStr b := (table.find? (utf8 ·.2 = b)).map (·.1.tailEnvelope)
  kindOfValue b := (table.find? (utf8 ·.2 = b)).map (·.1.payload.kind)

theorem exists_entry {r : AuditRecord δ} {b : Bytes} (h : (tableJson table).toVec r = some b) :
    ∃ text, (r, text) ∈ table ∧ b = utf8 text := by
  obtain ⟨entry, hfind, rfl⟩ := Option.map_eq_some_iff.mp h
  have hrecord : entry.1 = r := by simpa using List.find?_some hfind
  exact ⟨entry.2, hrecord ▸ List.mem_of_find?_eq_some hfind, rfl⟩

theorem tableJson_lawful (hdistinct : (table.map fun entry => utf8 entry.2).Nodup)
    (honce : ∀ entry ∈ table, beginsOnce (utf8 entry.2))
    (hprintable : ∀ entry ∈ table, (utf8 entry.2).all (0x20 ≤ ·)) : (tableJson table).Lawful where
  nonempty {r b} h := by
    obtain ⟨text, hmem, rfl⟩ := exists_entry h
    intro hnil
    have hbegins := honce _ hmem
    simp only [beginsOnce, hnil] at hbegins
    exact absurd hbegins (by decide +kernel)
  printable {r b} h := by
    obtain ⟨text, hmem, rfl⟩ := exists_entry h
    intro c hc
    simpa using List.all_eq_true.mp (hprintable _ hmem) c hc
  utf8 {r b} h := by
    obtain ⟨text, -, rfl⟩ := exists_entry h
    exact validUtf8_utf8 text
  roundTrip {r b} h := by
    obtain ⟨text, hmem, rfl⟩ := exists_entry h
    simp [tableJson, find_text hdistinct hmem]
  tail {r b} h := by
    obtain ⟨text, hmem, rfl⟩ := exists_entry h
    simp [tableJson, find_text hdistinct hmem]
  begunTwice {r b r' b' k} h h' hk := by
    obtain ⟨text', hmem', rfl⟩ := exists_entry h'
    have hnone : table.find? (utf8 ·.2 = b.take k ++ utf8 text') = none := by
      rw [List.find?_eq_none]
      intro entry hmem heq
      have hbegins := honce entry hmem
      rw [of_decide_eq_true heq] at hbegins
      exact not_beginsOnce_append hk (honce _ hmem') hbegins
    simp [tableJson, hnone]

end Table

/-! Two processes of one server and the records of its boots and of two
concurrent calls. -/

namespace Sample

def processA : ProcessId := ⟨"01JXAAAAAAAAAAAAAAAAAAAAAA"⟩

def processB : ProcessId := ⟨"01JXBBBBBBBBBBBBBBBBBBBBBB"⟩

def ts : Int := 1775571721

def recordText (seq : String) (processId : ProcessId) (payload : String) : String :=
  "\x7b\"seq\":" ++ seq ++ ",\"ts\":\"2026-04-07T14:22:01.000Z\",\"process_id\":\"" ++
    processId.ulid ++ "\"," ++ payload ++ "\x7d"

def processStartText (previousLastSeq previousProcessId : String) : String :=
  "\"kind\":\"process_start\",\"version\":\"0.1.0\",\"git_commit\":\"\"," ++
    "\"posture\":\"draft-safe\",\"tool_matrix\":[],\"config_path\":\"/zoé/c.toml\"," ++
    "\"config_hash_sha256\":\"aa\",\"previous_last_seq\":" ++ previousLastSeq ++
    ",\"previous_process_id\":" ++ previousProcessId ++
    ",\"previous_file_inode\":9999,\"audit_file_inode_changed\":false"

def toolStartText : String :=
  "\"kind\":\"tool_start\",\"account\":\"work\",\"tool\":\"search\"," ++
    "\"posture_effective\":\"draft-safe\",\"arguments_redacted\":\x7b\x7d," ++
    "\"arguments_hash_sha256\":\"aa\""

def start (seq : Seq) (processId : ProcessId) : AuditRecord Unit :=
  ⟨seq, ts, processId, .processStart 9999 ()⟩

def call (seq : Seq) : AuditRecord Unit := ⟨seq, ts, processA, .toolStart (some "work") .search ()⟩

def startText (seq previousLastSeq : String) : String :=
  recordText seq processB (processStartText previousLastSeq "\"01JXAAAAAAAAAAAAAAAAAAAAAA\"")

def table : List (AuditRecord Unit × String) :=
  [(start 1 processA, recordText "1" processA (processStartText "null" "null")),
   (call 2, recordText "2" processA toolStartText),
   (call 3, recordText "3" processA toolStartText),
   (call 4, recordText "4" processA toolStartText),
   (start 3 processB, startText "3" "2"),
   (start 5 processB, startText "5" "4")]

def codec : SerdeJson Unit := tableJson table

theorem codec_lawful : codec.Lawful :=
  tableJson_lawful (by decide +kernel) (by decide +kernel) (by decide +kernel)

def bootA : Written codec :=
  ⟨start 1 processA, utf8 (recordText "1" processA (processStartText "null" "null")),
    by decide +kernel⟩

def call2 : Written codec :=
  ⟨call 2, utf8 (recordText "2" processA toolStartText), by decide +kernel⟩

def call3 : Written codec :=
  ⟨call 3, utf8 (recordText "3" processA toolStartText), by decide +kernel⟩

def call4 : Written codec :=
  ⟨call 4, utf8 (recordText "4" processA toolStartText), by decide +kernel⟩

def bootB : Written codec := ⟨start 5 processB, utf8 (startText "5" "4"), by decide +kernel⟩

def bootB3 : Written codec := ⟨start 3 processB, utf8 (startText "3" "2"), by decide +kernel⟩

end Sample

end RustyImap.AuditLog
