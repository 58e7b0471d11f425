import RustyImap.RecordText

/-!
# Merging audit logs (`rimap-audit/src/reader/mod.rs`, `rimap-server/src/cli/audit_merge.rs`)

`parse_line` reads a line as a record, `audit merge` writes the record again.
The header fields, the `kind` and the fields of the payload stand in one
object, and each kind has its own.

A record is read back from its line, and a line says again all that it said,
under conditions that the two main lemmas make exact.
-/

namespace RustyImap.Record

open JsonCodec JsonCodec.Codec JsonCodec.Fields

/-! ## Kinds (`record/kind.rs`) -/

inductive Kind where
  | processStart
  | processEnd
  | auth
  | toolStart
  | toolEnd
  | config
  | folderPolicy
deriving DecidableEq, Repr

namespace Kind

/-- `KNOWN`, which is also the order of the variants. -/
def all : List Kind :=
  [processStart, processEnd, auth, toolStart, toolEnd, config, folderPolicy]

def name : Kind → String
  | processStart => "process_start"
  | processEnd => "process_end"
  | auth => "auth"
  | toolStart => "tool_start"
  | toolEnd => "tool_end"
  | config => "config"
  | folderPolicy => "folder_policy"

def Body : Kind → Type
  | processStart => ProcessStart
  | processEnd => ProcessEnd
  | auth => AuthEvent
  | toolStart => ToolStart
  | toolEnd => ToolEnd
  | config => ConfigEvent
  | folderPolicy => FolderPolicy

def payload : (k : Kind) → k.Body → Payload
  | processStart, start => .processStart start
  | processEnd, ending => .processEnd ending
  | auth, event => .auth event
  | toolStart, start => .toolStart start
  | toolEnd, ending => .toolEnd ending
  | config, event => .config event
  | folderPolicy, policy => .folderPolicy policy

def fields (fmt : Formats) : (k : Kind) → Fields k.Body
  | processStart => Record.processStart fmt
  | processEnd => Record.processEnd
  | auth => Record.authEvent
  | toolStart => Record.toolStart fmt
  | toolEnd => Record.toolEnd
  | config => Record.configEvent
  | folderPolicy => Record.folderPolicy

/-- The tag of a variant: its name, or its place among the variants. -/
def ofTag : Json → Option Kind
  | .string s => all.find? fun k => k.name == s
  | .number literal => (digitsToNat literal.toList).bind fun n => all[n]?
  | _ => none

theorem ofTag_name (k : Kind) : ofTag (.string k.name) = some k := by
  cases k <;> decide

end Kind

/-- `kind::of`. -/
def Payload.kind : Payload → Kind
  | .processStart _ => .processStart
  | .processEnd _ => .processEnd
  | .auth _ => .auth
  | .toolStart _ => .toolStart
  | .toolEnd _ => .toolEnd
  | .config _ => .config
  | .folderPolicy _ => .folderPolicy

def Payload.body : (p : Payload) → p.kind.Body
  | .processStart start => start
  | .processEnd ending => ending
  | .auth event => event
  | .toolStart start => start
  | .toolEnd ending => ending
  | .config event => event
  | .folderPolicy policy => policy

theorem Payload.payload_body (p : Payload) : p.kind.payload p.body = p := by
  cases p <;> rfl

theorem Kind.payload_eq_iff {p : Payload} {body : p.kind.Body} :
    p.kind.payload body = p ↔ body = p.body := by
  constructor
  · intro h
    cases p <;> cases h <;> rfl
  · rintro rfl
    exact p.payload_body

/-! ## Lines -/

/-- The tag as a field; it holds nothing beyond what chose the fields. -/
def tag (k : Kind) : Fields Unit :=
  required "kind" (leaf (fun _ => .string k.name) fun v =>
    if Kind.ofTag v = some k then some () else none)

def header (fmt : Formats) : Fields (Seq × Timestamp × ProcessId) :=
  (required "seq" seq).and
    ((required "ts" (timestamp fmt)).and
    (required "process_id" (processId fmt)))

/-- The fields of a line of one kind. -/
def lineFields (fmt : Formats) (k : Kind) :
    Fields ((Seq × Timestamp × ProcessId) × Unit × k.Body) :=
  (header fmt).and ((tag k).and (k.fields fmt))

/-- The kind of an object; a tag that occurs twice is an error. -/
def kindOf (fields : List (String × Json)) : Option Kind :=
  match occurrences fields "kind" with
  | [v] => Kind.ofTag v
  | _ => none

def AuditRecord.parts (r : AuditRecord) :
    (Seq × Timestamp × ProcessId) × Unit × r.payload.kind.Body :=
  ((r.seq, r.ts, r.processId), (), r.payload.body)

def AuditRecord.build (k : Kind) (x : (Seq × Timestamp × ProcessId) × Unit × k.Body) :
    AuditRecord :=
  ⟨x.1.1, x.1.2.1, x.1.2.2, k.payload x.2.2⟩

def readRecord (fmt : Formats) : Json → Option AuditRecord
  | .object fields =>
      (kindOf fields).bind fun k =>
        ((lineFields fmt k).decode (occurrences fields)).map (AuditRecord.build k)
  | _ => none

def writeRecord (fmt : Formats) (r : AuditRecord) : Json :=
  .object ((lineFields fmt r.payload.kind).encode r.parts)

/-- The parser of `serde_json` gives up at a nesting of 128. -/
def MAX_DEPTH : Nat := 127

/-- `parse_line`, of a line that is JSON. -/
def parseLine (fmt : Formats) (line : Json) : Option AuditRecord :=
  if depth line ≤ MAX_DEPTH then readRecord fmt line else none

def Payload.printable : Payload → Bool
  | .processStart start => start.configPath.isUtf8
  | .config event => event.path.isUtf8
  | _ => true

/-- `serde_json::to_string`, which `audit merge` prints. -/
def toLine (fmt : Formats) (r : AuditRecord) : Option Json :=
  if r.payload.printable then some (writeRecord fmt r) else none

/-! ## The lines are lawful -/

theorem lawful_tag (k : Kind) : (tag k).Lawful :=
  lawful_required (lawful_leaf fun _ => by rw [Kind.ofTag_name, if_pos rfl])

theorem lawful_header {fmt : Formats} (h : fmt.Documented) : (header fmt).Lawful := by
  refine lawful_and (lawful_required lawful_u64) ?_ (disjoint_of_all rfl)
  refine lawful_and (lawful_required (lawful_timestamp h)) ?_ (disjoint_of_all rfl)
  exact lawful_required (lawful_processId h)

theorem lawful_kindFields {fmt : Formats} (h : fmt.Documented) (k : Kind) :
    (k.fields fmt).Lawful := by
  cases k with
  | processStart => exact lawful_processStart h
  | processEnd => exact lawful_processEnd
  | auth => exact lawful_authEvent
  | toolStart => exact lawful_toolStart
  | toolEnd => exact lawful_toolEnd
  | config => exact lawful_configEvent
  | folderPolicy => exact lawful_folderPolicy

/-- The tag stands neither in the header nor in a payload. -/
theorem header_disjoint (fmt : Formats) (k : Kind) :
    ∀ key ∈ (header fmt).keys, key ∉ ((tag k).and (k.fields fmt)).keys := by
  cases k <;> exact disjoint_of_all rfl

theorem tag_disjoint (fmt : Formats) (k : Kind) :
    ∀ key ∈ (tag k).keys, key ∉ (k.fields fmt).keys := by
  cases k <;> exact disjoint_of_all rfl

theorem lawful_lineFields {fmt : Formats} (h : fmt.Documented) (k : Kind) :
    (lineFields fmt k).Lawful :=
  lawful_and (lawful_header h)
    (lawful_and (lawful_tag k) (lawful_kindFields h k) (tag_disjoint fmt k))
    (header_disjoint fmt k)

/-- What is written under `kind` is the name of the kind. -/
theorem kindOf_encode {fmt : Formats} (h : fmt.Documented) (k : Kind)
    (x : (Seq × Timestamp × ProcessId) × Unit × k.Body) :
    kindOf ((lineFields fmt k).encode x) = some k := by
  have hheader : occurrences ((header fmt).encode x.1) "kind" = [] :=
    (lawful_header h).occurrences_eq_nil
      (fun hin => header_disjoint fmt k "kind" hin
        (List.mem_append_left _ List.mem_cons_self)) x.1
  have hbody : occurrences ((k.fields fmt).encode x.2.2) "kind" = [] :=
    (lawful_kindFields h k).occurrences_eq_nil
      (fun hin => tag_disjoint fmt k "kind" List.mem_cons_self hin) x.2.2
  have htag : occurrences ((tag k).encode x.2.1) "kind" = [.string k.name] := rfl
  have hline : occurrences ((lineFields fmt k).encode x) "kind" = [.string k.name] := by
    have happend : (lineFields fmt k).encode x =
        (header fmt).encode x.1 ++ ((tag k).encode x.2.1 ++ (k.fields fmt).encode x.2.2) := rfl
    rw [happend, occurrences_append, occurrences_append, hheader, htag, hbody]
    rfl
  unfold kindOf
  rw [hline]
  exact Kind.ofTag_name k

theorem AuditRecord.build_eq_iff {r : AuditRecord}
    {x : (Seq × Timestamp × ProcessId) × Unit × r.payload.kind.Body} :
    AuditRecord.build r.payload.kind x = r ↔ x = r.parts := by
  obtain ⟨seq, ts, processId, payload⟩ := r
  obtain ⟨⟨seq', ts', processId'⟩, ⟨⟩, body⟩ := x
  simp only [AuditRecord.build, AuditRecord.parts, AuditRecord.mk.injEq, Kind.payload_eq_iff,
    Prod.mk.injEq, and_assoc, true_and]

/-- A record is read back from what is written of it when its parts are. -/
theorem readRecord_writeRecord_iff {fmt : Formats} (h : fmt.Documented) (r : AuditRecord) :
    readRecord fmt (writeRecord fmt r) = some r ↔
      (lineFields fmt r.payload.kind).Faithful r.parts := by
  have hread : readRecord fmt (writeRecord fmt r) =
      ((lineFields fmt r.payload.kind).decode
        (occurrences ((lineFields fmt r.payload.kind).encode r.parts))).map
          (AuditRecord.build r.payload.kind) := by
    unfold writeRecord readRecord
    simp only [kindOf_encode h, Option.bind_some]
  rw [hread, ← (lawful_lineFields h r.payload.kind).decode_encode, Option.map_eq_some_iff]
  constructor
  · rintro ⟨x, hx, hbuild⟩
    rw [AuditRecord.build_eq_iff] at hbuild
    exact hbuild ▸ hx
  · exact fun hx => ⟨r.parts, hx, AuditRecord.build_eq_iff.mpr rfl⟩

theorem readRecord_eq_some {fmt : Formats} {line : Json} {r : AuditRecord}
    (h : readRecord fmt line = some r) :
    ∃ fields, line = .object fields ∧ kindOf fields = some r.payload.kind ∧
      (lineFields fmt r.payload.kind).decode (occurrences fields) = some r.parts := by
  cases line with
  | object fields =>
      obtain ⟨k, hk, hbody⟩ := Option.bind_eq_some_iff.mp h
      obtain ⟨x, hx, hbuild⟩ := Option.map_eq_some_iff.mp hbody
      have hkind : r.payload.kind = k := by
        rw [← hbuild]
        cases k <;> rfl
      subst hkind
      rw [AuditRecord.build_eq_iff] at hbuild
      exact ⟨fields, rfl, hk, hbuild ▸ hx⟩
  | _ => cases h

/-! ## What is kept -/

/-- The line says again what the other says, field by field. -/
def LineSays (fmt : Formats) (line out : Json) : Prop :=
  ∃ fields k, line = .object fields ∧ kindOf fields = some k ∧
    (lineFields fmt k).struct.Says line out

/-- Every field of the line, and of the records in it, is one that the schema
    knows; none is one that would be left out; the time is in UTC and in whole
    milliseconds; the numbers of the arguments are read as what they denote. -/
def Understood (fmt : Formats) (line : Json) : Prop :=
  ∀ fields k, line = .object fields → kindOf fields = some k →
    (lineFields fmt k).struct.Plain line

/-- What of a payload has to be so that it is read back. -/
def Payload.Readable (fmt : Formats) : Payload → Prop
  | .processStart start => start.configPath.isUtf8 = true
  | .config event => event.path.isUtf8 = true
  | .toolStart start =>
      KeepsNumbers fmt.readFloat start.argumentsRedacted.json ∧
        depth start.argumentsRedacted.json < MAX_DEPTH
  | _ => True

structure AuditRecord.Readable (fmt : Formats) (r : AuditRecord) : Prop where
  utc : r.ts.dateTime.offset = 0
  year : 0 ≤ r.ts.dateTime.year
  payload : r.payload.Readable fmt

theorem lineSays_iff {fmt : Formats} (h : fmt.Documented) {line : Json} {r : AuditRecord}
    (hread : readRecord fmt line = some r) :
    LineSays fmt line (writeRecord fmt r) ↔ Understood fmt line := by
  obtain ⟨fields, rfl, hkind, hdecode⟩ := readRecord_eq_some hread
  have hiff := (lawful_struct (lawful_lineFields h r.payload.kind)).says_iff (.object fields)
    r.parts hdecode
  constructor
  · rintro ⟨fields', k, hline, hk, hsays⟩ fields'' k' hline' hk'
    obtain rfl := Json.object.inj hline
    obtain rfl := Json.object.inj hline'
    rw [hkind] at hk hk'
    obtain rfl := Option.some.inj hk
    obtain rfl := Option.some.inj hk'
    exact hiff.mp hsays
  · intro hplain
    exact ⟨fields, r.payload.kind, rfl, hkind, hiff.mpr (hplain fields _ rfl hkind)⟩

/-! ## What is read back -/

theorem faithful_accountSummary (a : AccountSummary) : accountSummary.Faithful a :=
  ⟨.inr trivial, .inr trivial, .inr trivial⟩

theorem faithful_toolVerdict (v : ToolVerdict) : toolVerdict.Faithful v :=
  ⟨.inr trivial, .inr trivial, .inr trivial⟩

theorem faithful_folderEntry (e : FolderEntry) : folderEntry.Faithful e :=
  ⟨.inr trivial, .inr trivial⟩

theorem faithful_accountToolMatrix (m : AccountToolMatrix) : accountToolMatrix.Faithful m :=
  ⟨.inr trivial, .inr trivial, .inr fun v _ => faithful_toolVerdict v,
    .inr fun e _ => faithful_folderEntry e, .inr trivial, .inr fun e _ => faithful_folderEntry e⟩

theorem faithful_attachmentProvenance (a : AttachmentProvenance) :
    attachmentProvenance.Faithful a :=
  ⟨.inr trivial, .inr trivial⟩

theorem faithful_resultSummary (s : ResultSummary) : resultSummary.Faithful s :=
  ⟨.inr fun _ _ => trivial, .inr trivial, .inr trivial, .inr fun _ _ => trivial,
    .inr fun _ _ => trivial, .inr fun _ _ => trivial, .inr fun _ _ => trivial,
    .inr fun _ _ => trivial, .inr fun _ _ => trivial,
    .inr fun a _ => faithful_attachmentProvenance a⟩

theorem faithful_provenance (p : Provenance) : provenance.Faithful p :=
  ⟨.inr trivial, .inr fun _ _ => trivial⟩

theorem faithful_processStart_iff (fmt : Formats) (s : ProcessStart) :
    (processStart fmt).Faithful s ↔ s.configPath.isUtf8 = true := by
  constructor
  · rintro ⟨-, -, -, -, -, hpath, -⟩
    exact hpath.resolve_left Bool.false_ne_true
  · intro hpath
    exact ⟨.inr trivial, .inr trivial, .inr fun _ _ => trivial,
      .inr fun _ _ a _ => faithful_accountSummary a,
      .inr fun m _ => faithful_accountToolMatrix m, .inr hpath, .inr trivial,
      .inr fun _ _ => trivial, .inr fun _ _ => trivial, .inr trivial, .inr trivial⟩

theorem faithful_processEnd (e : ProcessEnd) : processEnd.Faithful e :=
  ⟨.inr trivial, .inr trivial, .inr trivial, .inr trivial, .inr trivial⟩

theorem faithful_authEvent (a : AuthEvent) : authEvent.Faithful a :=
  ⟨.inr fun _ _ => trivial, .inr trivial, .inr trivial, .inr trivial, .inr trivial,
    .inr fun _ _ => trivial, .inr fun _ _ => trivial, .inr fun _ _ => trivial,
    .inr fun _ _ => trivial⟩

theorem faithful_toolStart_iff (fmt : Formats) (s : ToolStart) :
    (toolStart fmt).Faithful s ↔ KeepsNumbers fmt.readFloat s.argumentsRedacted.json := by
  constructor
  · rintro ⟨-, -, -, harguments, -⟩
    exact harguments.resolve_left Bool.false_ne_true
  · intro harguments
    exact ⟨.inr fun _ _ => trivial, .inr trivial, .inr trivial, .inr harguments, .inr trivial⟩

theorem faithful_toolEnd (e : ToolEnd) : toolEnd.Faithful e :=
  ⟨.inr fun _ _ => trivial, .inr trivial, .inr trivial, .inr trivial, .inr fun _ _ => trivial,
    .inr trivial, .inr (faithful_resultSummary e.resultSummary),
    .inr (faithful_provenance e.provenance)⟩

theorem faithful_configEvent_iff (e : ConfigEvent) :
    configEvent.Faithful e ↔ e.path.isUtf8 = true := by
  constructor
  · rintro ⟨hpath, -⟩
    exact hpath.resolve_left Bool.false_ne_true
  · exact fun hpath => ⟨.inr hpath, .inr trivial⟩

theorem faithful_folderPolicy (p : FolderPolicy) : folderPolicy.Faithful p :=
  ⟨.inr trivial, .inr fun e _ => faithful_folderEntry e, .inr trivial,
    .inr fun e _ => faithful_folderEntry e⟩

theorem faithful_header_iff (fmt : Formats) (x : Seq × Timestamp × ProcessId) :
    (header fmt).Faithful x ↔ x.2.1.dateTime.offset = 0 ∧ 0 ≤ x.2.1.dateTime.year := by
  constructor
  · rintro ⟨-, hts, -⟩
    exact hts.resolve_left Bool.false_ne_true
  · exact fun hts => ⟨.inr trivial, .inr hts, .inr trivial⟩

/-! ## How deep a line is -/

theorem within_string : string.Within 0 := fun _ => Nat.le_refl 0

theorem within_bool : bool.Within 0 := fun _ => Nat.le_refl 0

theorem within_uint {α : Type} {bound : Nat} {build : Nat → α} {value : α → Nat} :
    (uint bound build value).Within 0 := fun _ => Nat.le_refl 0

theorem within_text {α : Type} {asStr : α → String} {fromStr : String → Option α} :
    (text asStr fromStr).Within 0 := fun _ => Nat.le_refl 0

theorem within_unitEnum {α : Type} {all : List α} {name : α → String} :
    (unitEnum all name).Within 0 := fun _ => Nat.le_refl 0

theorem within_path (n : Nat) : path.Within n := fun p => by cases p <;> exact Nat.zero_le n

theorem within_leafList {α : Type} {c : Codec α} (h : c.Within 0) {n : Nat} (hn : 1 ≤ n) :
    c.list.Within n := (within_list h).mono hn

theorem within_leafOption {α : Type} {c : Codec α} (h : c.Within 0) (n : Nat) :
    c.option.Within n := (within_option h).mono (Nat.zero_le n)

theorem within_folderList : folderEntry.struct.list.Within 2 := by
  refine within_list (within_struct fun e => withinAt_iso ?_)
  refine withinAt_and (withinAt_field (Nat.zero_le _)) ?_
  exact withinAt_field (Nat.zero_le _)

theorem within_accountToolMatrix : accountToolMatrix.struct.Within 3 := by
  refine within_struct fun m => withinAt_iso ?_
  have htools : toolVerdict.struct.list.Within 2 := by
    refine within_list (within_struct fun v => withinAt_iso ?_)
    refine withinAt_and (withinAt_field (Nat.zero_le _)) ?_
    refine withinAt_and (withinAt_field (Nat.zero_le _)) ?_
    exact withinAt_field (Nat.zero_le _)
  refine withinAt_and (withinAt_field (Nat.zero_le _)) ?_
  refine withinAt_and (withinAt_field (Nat.zero_le _)) ?_
  refine withinAt_and (withinAt_field (htools _)) ?_
  refine withinAt_and (withinAt_field (within_folderList _)) ?_
  refine withinAt_and (withinAt_field (Nat.zero_le _)) ?_
  exact withinAt_field (within_folderList _)

theorem within_resultSummary : resultSummary.struct.Within 3 := by
  have hattachments : attachmentProvenance.struct.list.Within 2 := by
    refine within_list (within_struct fun a => withinAt_iso ?_)
    refine withinAt_and (withinAt_field (Nat.zero_le _)) ?_
    exact withinAt_field (Nat.zero_le _)
  have htwo : 1 ≤ 2 := by decide
  refine within_struct fun s => withinAt_iso ?_
  refine withinAt_and (withinAt_field (within_leafList within_string htwo _)) ?_
  refine withinAt_and (withinAt_field (Nat.zero_le _)) ?_
  refine withinAt_and (withinAt_field (Nat.zero_le _)) ?_
  refine withinAt_and (withinAt_field (within_leafList within_unitEnum htwo _)) ?_
  refine withinAt_and (withinAt_field (within_leafOption within_string _ _)) ?_
  refine withinAt_and (withinAt_field (within_leafOption within_string _ _)) ?_
  refine withinAt_and (withinAt_field (within_leafOption within_uint _ _)) ?_
  refine withinAt_and (withinAt_field (within_leafList within_uint htwo _)) ?_
  refine withinAt_and (withinAt_field (within_leafList within_uint htwo _)) ?_
  exact withinAt_field (hattachments _)

theorem within_provenance : provenance.struct.Within 2 := by
  refine within_struct fun p => withinAt_iso ?_
  refine withinAt_and (withinAt_field (Nat.zero_le _)) ?_
  exact withinAt_field (within_list within_string _)

section

variable {n : Nat}

/-- Nothing but the arguments of a tool is nested any deeper than this. -/
def RECORD_DEPTH : Nat := 4

theorem withinAt_processStart (fmt : Formats) (s : ProcessStart) (hn : RECORD_DEPTH ≤ n) :
    (processStart fmt).WithinAt s n := by
  have hmatrix : accountToolMatrix.struct.list.Within n := (within_list
    within_accountToolMatrix).mono hn
  have haccounts : accountSummary.struct.list.Within n := by
    refine (within_list (within_struct fun a => withinAt_iso ?_)).mono
      (Nat.le_trans (by decide : 2 ≤ RECORD_DEPTH) hn)
    refine withinAt_and (withinAt_field (Nat.zero_le _)) ?_
    refine withinAt_and (withinAt_field (Nat.zero_le _)) ?_
    exact withinAt_field (Nat.zero_le _)
  refine withinAt_iso ?_
  refine withinAt_and (withinAt_field (Nat.zero_le _)) ?_
  refine withinAt_and (withinAt_field (Nat.zero_le _)) ?_
  refine withinAt_and (withinAt_field (within_leafOption within_unitEnum n _)) ?_
  refine withinAt_and (withinAt_field (within_option haccounts _)) ?_
  refine withinAt_and (withinAt_field (hmatrix _)) ?_
  refine withinAt_and (withinAt_field (within_path n _)) ?_
  refine withinAt_and (withinAt_field (Nat.zero_le _)) ?_
  refine withinAt_and (withinAt_field (within_leafOption within_uint n _)) ?_
  refine withinAt_and (withinAt_field (within_leafOption within_text n _)) ?_
  refine withinAt_and (withinAt_field (Nat.zero_le _)) ?_
  exact withinAt_field (Nat.zero_le _)

theorem withinAt_processEnd (e : ProcessEnd) : processEnd.WithinAt e n := by
  refine withinAt_iso ?_
  refine withinAt_and (withinAt_field (Nat.zero_le _)) ?_
  refine withinAt_and (withinAt_field (Nat.zero_le _)) ?_
  refine withinAt_and (withinAt_field (Nat.zero_le _)) ?_
  refine withinAt_and (withinAt_field (Nat.zero_le _)) ?_
  exact withinAt_field (Nat.zero_le _)

theorem withinAt_authEvent (a : AuthEvent) : authEvent.WithinAt a n := by
  refine withinAt_iso ?_
  refine withinAt_and (withinAt_field (within_leafOption within_string n _)) ?_
  refine withinAt_and (withinAt_field (Nat.zero_le _)) ?_
  refine withinAt_and (withinAt_field (Nat.zero_le _)) ?_
  refine withinAt_and (withinAt_field (Nat.zero_le _)) ?_
  refine withinAt_and (withinAt_field (Nat.zero_le _)) ?_
  refine withinAt_and (withinAt_field (within_leafOption within_string n _)) ?_
  refine withinAt_and (withinAt_field (within_leafOption within_bool n _)) ?_
  refine withinAt_and (withinAt_field (within_leafOption within_text n _)) ?_
  exact withinAt_field (within_leafOption within_unitEnum n _)

theorem withinAt_toolStart_iff (fmt : Formats) (s : ToolStart) :
    (toolStart fmt).WithinAt s n ↔ depth s.argumentsRedacted.json ≤ n := by
  constructor
  · intro h
    have hmem : ("arguments_redacted", s.argumentsRedacted.json) ∈ (toolStart fmt).encode s := by
      refine List.mem_append_right _ (List.mem_append_right _ (List.mem_append_right _ ?_))
      exact List.mem_append_left _ List.mem_cons_self
    exact h _ hmem
  · intro h
    refine withinAt_iso ?_
    refine withinAt_and (withinAt_field (within_leafOption within_string n _)) ?_
    refine withinAt_and (withinAt_field (Nat.zero_le _)) ?_
    refine withinAt_and (withinAt_field (Nat.zero_le _)) ?_
    refine withinAt_and (withinAt_field h) ?_
    exact withinAt_field (Nat.zero_le _)

theorem withinAt_toolEnd (e : ToolEnd) (hn : RECORD_DEPTH ≤ n) : toolEnd.WithinAt e n := by
  have hsummary := within_resultSummary.mono (Nat.le_trans (by decide : 3 ≤ RECORD_DEPTH) hn)
  have hprovenance := within_provenance.mono (Nat.le_trans (by decide : 2 ≤ RECORD_DEPTH) hn)
  refine withinAt_iso ?_
  refine withinAt_and (withinAt_field (within_leafOption within_string n _)) ?_
  refine withinAt_and (withinAt_field (Nat.zero_le _)) ?_
  refine withinAt_and (withinAt_field (Nat.zero_le _)) ?_
  refine withinAt_and (withinAt_field (Nat.zero_le _)) ?_
  refine withinAt_and (withinAt_field (within_leafOption within_text n _)) ?_
  refine withinAt_and (withinAt_field (Nat.zero_le _)) ?_
  refine withinAt_and (withinAt_field (hsummary _)) ?_
  exact withinAt_field (hprovenance _)

theorem withinAt_configEvent (e : ConfigEvent) : configEvent.WithinAt e n := by
  refine withinAt_iso ?_
  refine withinAt_and (withinAt_field (within_path n _)) ?_
  exact withinAt_field (Nat.zero_le _)

theorem withinAt_folderPolicy (p : FolderPolicy) (hn : RECORD_DEPTH ≤ n) :
    folderPolicy.WithinAt p n := by
  have hfolders := within_folderList.mono (Nat.le_trans (by decide : 2 ≤ RECORD_DEPTH) hn)
  refine withinAt_iso ?_
  refine withinAt_and (withinAt_field (Nat.zero_le _)) ?_
  refine withinAt_and (withinAt_field (hfolders _)) ?_
  refine withinAt_and (withinAt_field (Nat.zero_le _)) ?_
  exact withinAt_field (hfolders _)

theorem withinAt_header (fmt : Formats) (x : Seq × Timestamp × ProcessId) :
    (header fmt).WithinAt x n := by
  refine withinAt_and (withinAt_field (Nat.zero_le _)) ?_
  refine withinAt_and (withinAt_field (Nat.zero_le _)) ?_
  exact withinAt_field (Nat.zero_le _)

end

/-- A line is nested too deeply only where the arguments of a tool are. -/
theorem depth_writeRecord_le_iff (fmt : Formats) (r : AuditRecord) :
    depth (writeRecord fmt r) ≤ MAX_DEPTH ↔
      ∀ start, r.payload = .toolStart start →
        depth start.argumentsRedacted.json < MAX_DEPTH := by
  have hline : depth (writeRecord fmt r) ≤ MAX_DEPTH ↔
      (r.payload.kind.fields fmt).WithinAt r.payload.body 126 := by
    have hfields : depth (writeRecord fmt r) ≤ MAX_DEPTH ↔
        (lineFields fmt r.payload.kind).WithinAt r.parts 126 := by
      have hdepth : depth (writeRecord fmt r) =
          depthFields ((lineFields fmt r.payload.kind).encode r.parts) + 1 := by
        unfold writeRecord
        rw [depth]
      have hle := @depthFields_le_iff ((lineFields fmt r.payload.kind).encode r.parts) 126
      rw [hdepth, WithinAt, ← hle, MAX_DEPTH]
      omega
    rw [hfields]
    constructor
    · intro h p hp
      exact h p (List.mem_append_right _ (List.mem_append_right _ hp))
    · intro h
      refine withinAt_and (withinAt_header fmt _) (withinAt_and ?_ h)
      exact withinAt_field (Nat.zero_le _)
  rw [hline]
  obtain ⟨seq, ts, processId, payload⟩ := r
  have hdeep : RECORD_DEPTH ≤ 126 := by decide
  cases payload with
  | processStart s =>
      exact iff_of_true (withinAt_processStart fmt s hdeep) fun _ h => by cases h
  | processEnd e => exact iff_of_true (withinAt_processEnd e) fun _ h => by cases h
  | auth a => exact iff_of_true (withinAt_authEvent a) fun _ h => by cases h
  | toolStart s =>
      have hiff := @withinAt_toolStart_iff 126 fmt s
      constructor
      · intro h start hstart
        obtain rfl := Payload.toolStart.inj hstart
        exact Nat.lt_succ_of_le (hiff.mp h)
      · exact fun h => hiff.mpr (Nat.le_of_lt_succ (h s rfl))
  | toolEnd e => exact iff_of_true (withinAt_toolEnd e hdeep) fun _ h => by cases h
  | config e => exact iff_of_true (withinAt_configEvent e) fun _ h => by cases h
  | folderPolicy p => exact iff_of_true (withinAt_folderPolicy p hdeep) fun _ h => by cases h

/-! ## Records -/

theorem Payload.readable_iff (fmt : Formats) (p : Payload) :
    p.Readable fmt ↔ p.printable = true ∧ (p.kind.fields fmt).Faithful p.body ∧
      ∀ start, p = .toolStart start → depth start.argumentsRedacted.json < MAX_DEPTH := by
  cases p with
  | processStart s =>
      have hiff := faithful_processStart_iff fmt s
      exact ⟨fun h => ⟨h, hiff.mpr h, fun _ hstart => by cases hstart⟩, fun h => h.1⟩
  | processEnd e =>
      exact iff_of_true trivial ⟨rfl, faithful_processEnd e, fun _ hstart => by cases hstart⟩
  | auth a =>
      exact iff_of_true trivial ⟨rfl, faithful_authEvent a, fun _ hstart => by cases hstart⟩
  | toolStart s =>
      have hiff := faithful_toolStart_iff fmt s
      constructor
      · rintro ⟨hnumbers, hdepth⟩
        refine ⟨rfl, hiff.mpr hnumbers, fun start hstart => ?_⟩
        exact Payload.toolStart.inj hstart ▸ hdepth
      · rintro ⟨-, hfaithful, hdepth⟩
        exact ⟨hiff.mp hfaithful, hdepth s rfl⟩
  | toolEnd e =>
      exact iff_of_true trivial ⟨rfl, faithful_toolEnd e, fun _ hstart => by cases hstart⟩
  | config e =>
      have hiff := faithful_configEvent_iff e
      exact ⟨fun h => ⟨h, hiff.mpr h, fun _ hstart => by cases hstart⟩, fun h => h.1⟩
  | folderPolicy p =>
      exact iff_of_true trivial ⟨rfl, faithful_folderPolicy p, fun _ hstart => by cases hstart⟩

theorem AuditRecord.readable_iff (fmt : Formats) (r : AuditRecord) :
    r.Readable fmt ↔ r.payload.printable = true ∧
      (lineFields fmt r.payload.kind).Faithful r.parts ∧
      depth (writeRecord fmt r) ≤ MAX_DEPTH := by
  have hheader := faithful_header_iff fmt r.parts.1
  have htag : (tag r.payload.kind).Faithful r.parts.2.1 := .inr trivial
  have hdepth := depth_writeRecord_le_iff fmt r
  have hpayload := r.payload.readable_iff fmt
  constructor
  · rintro ⟨hutc, hyear, hp⟩
    obtain ⟨hprintable, hfaithful, hd⟩ := hpayload.mp hp
    exact ⟨hprintable, ⟨hheader.mpr ⟨hutc, hyear⟩, htag, hfaithful⟩, hdepth.mpr hd⟩
  · rintro ⟨hprintable, ⟨hh, -, hfaithful⟩, hd⟩
    obtain ⟨hutc, hyear⟩ := hheader.mp hh
    exact ⟨hutc, hyear, hpayload.mpr ⟨hprintable, hfaithful, hdepth.mp hd⟩⟩

/-- A record is read back from the line that is printed for it exactly when it
    is readable. -/
theorem parseLine_toLine_iff {fmt : Formats} (h : fmt.Documented) (r : AuditRecord) :
    (toLine fmt r).bind (parseLine fmt) = some r ↔ r.Readable fmt := by
  rw [r.readable_iff fmt]
  unfold toLine
  by_cases hprintable : r.payload.printable = true
  · rw [if_pos hprintable, Option.bind_some, parseLine]
    by_cases hdepth : depth (writeRecord fmt r) ≤ MAX_DEPTH
    · rw [if_pos hdepth, readRecord_writeRecord_iff h r]
      exact ⟨fun hf => ⟨hprintable, hf, hdepth⟩, fun hall => hall.2.1⟩
    · rw [if_neg hdepth]
      exact iff_of_false nofun fun hall => hdepth hall.2.2
  · rw [if_neg hprintable]
    exact iff_of_false nofun fun hall => hprintable hall.1

/-! ## Lines -/

theorem isUtf8_of_decode {key : String} {i : String → List Json} {p : PathBuf}
    (h : (required key path).decode i = some p) : p.isUtf8 = true := by
  rcases field_decode_eq_some h with ⟨-, hmissing⟩ | ⟨v, -, hv⟩
  · cases hmissing
  · cases v with
    | string s => exact Option.some.inj hv ▸ rfl
    | _ => cases hv

/-- What was read can be printed. -/
theorem printable_of_readRecord {fmt : Formats} {line : Json} {r : AuditRecord}
    (h : readRecord fmt line = some r) : r.payload.printable = true := by
  obtain ⟨fields, -, -, hdecode⟩ := readRecord_eq_some h
  have hbody : (r.payload.kind.fields fmt).decode (occurrences fields) = some r.payload.body :=
    (and_decode_eq_some.mp (and_decode_eq_some.mp hdecode).2).2
  cases hpayload : r.payload with
  | processStart s =>
      rw [hpayload] at hbody
      obtain ⟨x, hx, rfl⟩ := Option.map_eq_some_iff.mp hbody
      have hposture := (and_decode_eq_some.mp (and_decode_eq_some.mp hx).2).2
      have haccounts := (and_decode_eq_some.mp hposture).2
      have hpath := (and_decode_eq_some.mp (and_decode_eq_some.mp haccounts).2).2
      exact isUtf8_of_decode (and_decode_eq_some.mp hpath).1
  | config e =>
      rw [hpayload] at hbody
      obtain ⟨x, hx, rfl⟩ := Option.map_eq_some_iff.mp hbody
      exact isUtf8_of_decode (and_decode_eq_some.mp hx).1
  | _ => rfl

theorem parseLine_eq_some {fmt : Formats} {line : Json} {r : AuditRecord}
    (h : parseLine fmt line = some r) : readRecord fmt line = some r := by
  unfold parseLine at h
  split at h
  · exact h
  · cases h

/-- Every line that is read is printed again, and says what it said exactly
    when it was understood. -/
theorem toLine_says_iff {fmt : Formats} (h : fmt.Documented) {line : Json} {r : AuditRecord}
    (hparse : parseLine fmt line = some r) :
    (∃ out, toLine fmt r = some out ∧ LineSays fmt line out) ↔ Understood fmt line := by
  have hread := parseLine_eq_some hparse
  have hline : toLine fmt r = some (writeRecord fmt r) :=
    if_pos (printable_of_readRecord hread)
  rw [← lineSays_iff h hread]
  constructor
  · rintro ⟨out, hout, hsays⟩
    rw [hline] at hout
    exact Option.some.inj hout ▸ hsays
  · exact fun hsays => ⟨writeRecord fmt r, hline, hsays⟩

/-! ## What a merge keeps -/

/-- A record survives its line exactly when it is readable, and a line survives
    the merge exactly when it was understood. -/
theorem merge_keeps_iff (fmt : Formats) (h : fmt.Documented) :
    (∀ r, (toLine fmt r).bind (parseLine fmt) = some r ↔ r.Readable fmt) ∧
      ∀ line r, parseLine fmt line = some r →
        ((∃ out, toLine fmt r = some out ∧ LineSays fmt line out) ↔ Understood fmt line) :=
  ⟨parseLine_toLine_iff h, fun _ _ hparse => toLine_says_iff h hparse⟩

/-- The last line of a process, with fields that are not of the schema. -/
def endLine (ts : String) (newer : List (String × Json)) : Json :=
  .object ([("seq", .number "4"), ("ts", .string ts),
    ("process_id", .string "01ARZ3NDEKTSV4RRFFQ69G5FAV"), ("kind", .string "process_end"),
    ("reason", .string "eof"), ("total_tool_calls", .number "12")] ++ newer)

theorem Understood.utc {fmt : Formats} {fields : List (String × Json)} {k : Kind} {s : String}
    {dt : OffsetDateTime} (h : Understood fmt (.object fields)) (hkind : kindOf fields = some k)
    (hts : ("ts", Json.string s) ∈ fields) (hdt : fmt.rfc3339 s = some dt) :
    dt.offset = 0 ∧ dt.nanosecond % 1000000 = 0 := by
  obtain ⟨-, hheader, -⟩ := h fields k rfl hkind
  have hplain : (timestamp fmt).Plain (.string s) :=
    (hheader.2.1 (.string s) (mem_occurrences.mpr hts)).1
  exact hplain s dt rfl hdt

theorem Understood.known {fmt : Formats} {fields : List (String × Json)} {k : Kind}
    (h : Understood fmt (.object fields)) (hkind : kindOf fields = some k) :
    ∀ p ∈ fields, p.1 ∈ (lineFields fmt k).keys :=
  (h fields k rfl hkind).1

/-- Of the end of a process nothing can be lost but the time and what is not
    known. -/
theorem understood_processEnd {fmt : Formats} {fields : List (String × Json)}
    (hkind : kindOf fields = some .processEnd)
    (hknown : ∀ p ∈ fields, p.1 ∈ (lineFields fmt .processEnd).keys)
    (htime : ∀ v ∈ occurrences fields "ts", (timestamp fmt).Plain v) :
    Understood fmt (.object fields) := by
  intro fields' k hline hk
  obtain rfl := Json.object.inj hline
  rw [hkind] at hk
  obtain rfl := Option.some.inj hk
  have hheader : (header fmt).Plain (occurrences fields) :=
    ⟨plain_required_iff.mpr fun _ _ => trivial, plain_required_iff.mpr htime,
      plain_required_iff.mpr fun _ _ => trivial⟩
  have htag : (tag .processEnd).Plain (occurrences fields) :=
    plain_required_iff.mpr fun _ _ => trivial
  have hbody : Record.processEnd.Plain (occurrences fields) :=
    ⟨plain_required_iff.mpr fun _ _ => trivial, plain_required_iff.mpr fun _ _ => trivial,
      plain_defaulted_iff.mpr fun _ _ => trivial, plain_defaulted_iff.mpr fun _ _ => trivial,
      plain_defaulted_iff.mpr fun _ _ => trivial⟩
  exact ⟨hknown, hheader, htag, hbody⟩

theorem understood_endLine {ts : String} {dt : OffsetDateTime}
    (hts : Formats.standard.rfc3339 ts = some dt)
    (hutc : dt.offset = 0 ∧ dt.nanosecond % 1000000 = 0) :
    Understood Formats.standard (endLine ts []) := by
  refine understood_processEnd rfl ?_ ?_
  · simp [lineFields, header, tag, Kind.fields, Record.processEnd, Fields.and, Fields.iso,
      required, defaulted, field]
  · intro v hv s dt' hs hdt'
    obtain rfl : v = .string ts := by simpa [occurrences] using hv
    obtain rfl := Json.string.inj hs
    rw [hts] at hdt'
    exact Option.some.inj hdt' ▸ hutc

/-- A line in UTC without newer fields is read, is printed, and says the same. -/
theorem merge_keeps_endLine :
    ∃ r out, parseLine Formats.standard (endLine "2026-04-07T14:22:01.000Z" []) = some r ∧
      toLine Formats.standard r = some out ∧ parseLine Formats.standard out = some r ∧
      LineSays Formats.standard (endLine "2026-04-07T14:22:01.000Z" []) out := by
  have hrun : ((parseLine Formats.standard (endLine "2026-04-07T14:22:01.000Z" [])).map fun r =>
      (r.ts.dateTime.offset, r.ts.dateTime.year, r.payload.kind)) =
        some (0, 2026, .processEnd) := by decide +kernel
  have htime : (Formats.standard.rfc3339 "2026-04-07T14:22:01.000Z").map
      (fun dt => (dt.offset, dt.nanosecond)) = some (0, 0) := by decide +kernel
  obtain ⟨r, hr, hparts⟩ := Option.map_eq_some_iff.mp hrun
  obtain ⟨dt, hdt, hdtparts⟩ := Option.map_eq_some_iff.mp htime
  simp only [Prod.mk.injEq] at hparts hdtparts
  obtain ⟨hoffset, hyear, hkind⟩ := hparts
  obtain ⟨hmerge, hlines⟩ := merge_keeps_iff Formats.standard documented_standard
  have hreadable : r.Readable Formats.standard := by
    refine ⟨hoffset, by omega, ?_⟩
    cases hp : r.payload with
    | processEnd e => trivial
    | _ => rw [hp] at hkind; cases hkind
  have hunderstood := understood_endLine hdt ⟨hdtparts.1, by rw [hdtparts.2]⟩
  obtain ⟨out, hout, hsays⟩ := (hlines _ r hr).mpr hunderstood
  have hback := (hmerge r).mpr hreadable
  rw [hout] at hback
  exact ⟨r, out, hr, hout, hback, hsays⟩

/-- A line with an offset is printed with another instant, and one with a newer
    field without it. -/
theorem merge_loses :
    (∃ r, parseLine Formats.standard (endLine "2026-04-07T14:22:01.000+02:00" []) = some r ∧
      ¬∃ out, toLine Formats.standard r = some out ∧
        LineSays Formats.standard (endLine "2026-04-07T14:22:01.000+02:00" []) out) ∧
    ∃ r, parseLine Formats.standard
        (endLine "2026-04-07T14:22:01.000Z" [("exit_code", .number "3")]) = some r ∧
      ¬∃ out, toLine Formats.standard r = some out ∧
        LineSays Formats.standard
          (endLine "2026-04-07T14:22:01.000Z" [("exit_code", .number "3")]) out := by
  constructor
  · have hrun : (parseLine Formats.standard
        (endLine "2026-04-07T14:22:01.000+02:00" [])).isSome = true := by decide +kernel
    have htime : (Formats.standard.rfc3339 "2026-04-07T14:22:01.000+02:00").map
        OffsetDateTime.offset = some 7200 := by decide +kernel
    obtain ⟨r, hr⟩ := Option.isSome_iff_exists.mp hrun
    obtain ⟨dt, hdt, hoffset⟩ := Option.map_eq_some_iff.mp htime
    refine ⟨r, hr, ?_⟩
    rw [toLine_says_iff documented_standard hr]
    intro hunderstood
    have hutc := (hunderstood.utc (k := .processEnd) rfl (List.mem_cons_of_mem _
      List.mem_cons_self) hdt).1
    rw [hoffset] at hutc
    cases hutc
  · have hrun : (parseLine Formats.standard
        (endLine "2026-04-07T14:22:01.000Z" [("exit_code", .number "3")])).isSome = true := by
      decide +kernel
    obtain ⟨r, hr⟩ := Option.isSome_iff_exists.mp hrun
    refine ⟨r, hr, ?_⟩
    rw [toLine_says_iff documented_standard hr]
    intro hunderstood
    have hknown := hunderstood.known (k := .processEnd) rfl ("exit_code", .number "3") (by simp)
    revert hknown
    decide

end RustyImap.Record
