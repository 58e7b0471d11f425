import RustyImap.AuditRecord

/-!
# Redaction of tool arguments (`rimap-audit/src/redact.rs`)

`tool_start` is recorded before the arguments are decoded, so a redactor sees
whatever a client sent.  Each tool has a schema that gives its top-level
arguments a policy; what has none is redacted as a string.

SHA-256 and `serde_json::to_vec` are parameters, of which nothing is asked.
The warning about a forbidden field is left out.
-/

namespace RustyImap.Redaction

open Record (AuditRecord Payload ToolStart Value Canonical)

/-! ## Policies and schemas -/

inductive VerbatimType where
  | string
  | dateString
  | u64
  | bool
  | u64Array
  | u64ArrayMax (max : Nat)
  | stringArray
deriving DecidableEq, Repr

inductive FieldPolicy where
  | verbatim (type : VerbatimType)
  | redactString
  | saltedHash
  | forbidden
deriving DecidableEq, Repr

structure RedactionSchema where
  tool : ToolName
  policies : OrderedMap String FieldPolicy

def RedactionSchema.new (tool : ToolName) (rules : List (String × FieldPolicy)) :
    RedactionSchema :=
  ⟨tool, rules.foldl (fun policies (name, policy) => policies.insert name policy) .empty⟩

def RedactionSchema.policyFor (schema : RedactionSchema) (name : String) : FieldPolicy :=
  (schema.policies.get name).getD .redactString

/-! ## The schemas of the tools -/

section Schemas

open FieldPolicy VerbatimType

def listFoldersSchema (tool : ToolName) : RedactionSchema :=
  .new tool [("password", forbidden), ("token", forbidden)]

def SEARCH_POLICIES : List (String × FieldPolicy) :=
  [("folder", verbatim string),
   ("limit", verbatim u64),
   ("offset", verbatim u64),
   ("larger", verbatim u64),
   ("smaller", verbatim u64),
   ("since", verbatim dateString),
   ("before", verbatim dateString),
   ("sent_since", verbatim dateString),
   ("sent_before", verbatim dateString),
   ("seen", verbatim bool),
   ("answered", verbatim bool),
   ("flagged", verbatim bool),
   ("draft", verbatim bool),
   ("has_attachment", verbatim bool),
   ("from", redactString),
   ("to", redactString),
   ("cc", redactString),
   ("bcc", redactString),
   ("subject", redactString),
   ("body", redactString),
   ("text", redactString),
   ("advanced_query", redactString),
   ("headers", saltedHash),
   ("password", forbidden),
   ("token", forbidden)]

def searchSchema (tool : ToolName) : RedactionSchema := .new tool SEARCH_POLICIES

def searchAdvancedSchema (tool : ToolName) : RedactionSchema := .new tool SEARCH_POLICIES

def fetchMessageSchema (tool : ToolName) : RedactionSchema :=
  .new tool
    [("folder", verbatim string),
     ("uid", verbatim u64),
     ("include_html", verbatim bool),
     ("password", forbidden),
     ("token", forbidden)]

def folderUidSchema (tool : ToolName) : RedactionSchema :=
  .new tool
    [("folder", verbatim string),
     ("uid", verbatim u64),
     ("password", forbidden),
     ("token", forbidden)]

def downloadAttachmentSchema (tool : ToolName) : RedactionSchema :=
  .new tool
    [("folder", verbatim string),
     ("uid", verbatim u64),
     ("part", verbatim string),
     ("password", forbidden),
     ("token", forbidden)]

def EXPORT_UIDS_REDACT_CAP : Nat := 100

def exportMessagesSchema (tool : ToolName) : RedactionSchema :=
  .new tool
    [("folder", verbatim string),
     ("uids", verbatim (u64ArrayMax EXPORT_UIDS_REDACT_CAP)),
     ("expected_uidvalidity", verbatim u64),
     ("max_total_bytes", verbatim u64),
     ("allow_partial", verbatim bool),
     ("dest_dir", redactString),
     ("filename", redactString),
     ("password", forbidden),
     ("token", forbidden)]

def flagSchema (tool : ToolName) : RedactionSchema :=
  .new tool
    [("folder", verbatim string),
     ("uid", verbatim u64),
     ("flag", verbatim string),
     ("password", forbidden),
     ("token", forbidden)]

def moveMessageSchema (tool : ToolName) : RedactionSchema :=
  .new tool
    [("folder", verbatim string),
     ("uid", verbatim u64),
     ("destination", verbatim string),
     ("password", forbidden),
     ("token", forbidden)]

def createDraftSchema (tool : ToolName) : RedactionSchema :=
  .new tool
    [("folder", verbatim string),
     ("in_reply_to_uid", verbatim u64),
     ("to", saltedHash),
     ("cc", saltedHash),
     ("bcc", saltedHash),
     ("subject", redactString),
     ("body_text", redactString),
     ("body_html", redactString),
     ("attachments", redactString),
     ("password", forbidden),
     ("token", forbidden)]

def forwardSchema (tool : ToolName) : RedactionSchema :=
  .new tool
    [("folder", verbatim string),
     ("uid", verbatim u64),
     ("to", saltedHash),
     ("cc", saltedHash),
     ("bcc", saltedHash),
     ("comment", redactString),
     ("password", forbidden),
     ("token", forbidden)]

def sendEmailSchema (tool : ToolName) : RedactionSchema :=
  .new tool
    [("to", saltedHash),
     ("cc", saltedHash),
     ("bcc", saltedHash),
     ("subject", redactString),
     ("body", redactString),
     ("body_text", redactString),
     ("body_html", redactString),
     ("attachments", redactString),
     ("in_reply_to", verbatim string),
     ("references", verbatim stringArray),
     ("message_id", verbatim string),
     ("smtp_response", redactString),
     ("sent_copy_uid", verbatim u64),
     ("folder", verbatim string),
     ("password", forbidden),
     ("token", forbidden)]

def deleteMessageSchema (tool : ToolName) : RedactionSchema :=
  .new tool
    [("folder", verbatim string),
     ("uid", verbatim u64),
     ("message_id", verbatim string),
     ("destination", verbatim string),
     ("password", forbidden),
     ("token", forbidden)]

def expungeSchema (tool : ToolName) : RedactionSchema :=
  .new tool
    [("folder", verbatim string),
     ("expunged_count", verbatim u64),
     ("expunged_uids", verbatim u64Array),
     ("password", forbidden),
     ("token", forbidden)]

def createFolderSchema (tool : ToolName) : RedactionSchema :=
  .new tool [("name", verbatim string), ("password", forbidden), ("token", forbidden)]

def renameFolderSchema (tool : ToolName) : RedactionSchema :=
  .new tool
    [("old_name", verbatim string),
     ("new_name", verbatim string),
     ("password", forbidden),
     ("token", forbidden)]

def deleteFolderSchema (tool : ToolName) : RedactionSchema :=
  .new tool
    [("name", verbatim string),
     ("message_count", verbatim u64),
     ("password", forbidden),
     ("token", forbidden)]

def addRemoveLabelSchema (tool : ToolName) : RedactionSchema :=
  .new tool
    [("folder", verbatim string),
     ("uid", verbatim u64),
     ("uids", verbatim u64Array),
     ("label", verbatim string)]

def listLabelsSchema (tool : ToolName) : RedactionSchema :=
  .new tool [("folder", verbatim string), ("uid", verbatim u64)]

def useAccountSchema (tool : ToolName) : RedactionSchema := .new tool [("account", redactString)]

def listAccountsSchema (tool : ToolName) : RedactionSchema := .new tool []

end Schemas

def redactionSchema (tool : ToolName) : RedactionSchema :=
  match tool with
  | .listFolders => listFoldersSchema tool
  | .search => searchSchema tool
  | .searchAdvanced => searchAdvancedSchema tool
  | .fetchMessage | .fetchMessageHtml => fetchMessageSchema tool
  | .listAttachments | .markRead | .markUnread => folderUidSchema tool
  | .downloadAttachment => downloadAttachmentSchema tool
  | .exportMessages => exportMessagesSchema tool
  | .flag | .unflag => flagSchema tool
  | .moveMessage => moveMessageSchema tool
  | .createDraft | .createDraftHtml => createDraftSchema tool
  | .sendEmail => sendEmailSchema tool
  | .forward => forwardSchema tool
  | .deleteMessage => deleteMessageSchema tool
  | .expunge => expungeSchema tool
  | .createFolder => createFolderSchema tool
  | .renameFolder => renameFolderSchema tool
  | .deleteFolder => deleteFolderSchema tool
  | .addLabel | .removeLabel => addRemoveLabelSchema tool
  | .listLabels => listLabelsSchema tool
  | .useAccount => useAccountSchema tool
  | .listAccounts => listAccountsSchema tool

/-! ## The redactor -/

abbrev RedactionSalt := Vector UInt8 32

/-- A number that fits `u64` is written in decimal digits. -/
def asU64 : Json → Option Nat
  | .number literal => (digitsToNat literal.toList).filter fun n => n < 2 ^ 64
  | _ => none

def DATE_STRING_MAX_BYTES : Nat := 32

def verbatimCheck (value : Json) : VerbatimType → Option Json
  | .string => value.asStr.map fun _ => value
  | .dateString =>
      (value.asStr.filter fun s => s.utf8ByteSize ≤ DATE_STRING_MAX_BYTES).map fun _ => value
  | .u64 => (asU64 value).map fun _ => value
  | .bool => value.asBool.map fun _ => value
  | .u64Array =>
      (value.asArray.filter fun arr => arr.all fun v => (asU64 v).isSome).map fun _ => value
  | .u64ArrayMax max =>
      (value.asArray.filter fun arr =>
        arr.length ≤ max && arr.all fun v => (asU64 v).isSome).map fun _ => value
  | .stringArray =>
      (value.asArray.filter fun arr => arr.all fun v => v.asStr.isSome).map fun _ => value

def redactString (value : Json) : Json :=
  match value with
  | .string s => .string ("<redacted:" ++ toString s.utf8ByteSize ++ ">")
  | _ => .string "<redacted:?>"

def hexDigits : List Char :=
  ['0', '1', '2', '3', '4', '5', '6', '7', '8', '9', 'a', 'b', 'c', 'd', 'e', 'f']

def hexByte (byte : UInt8) : String :=
  String.ofList [hexDigits.getD (byte.toNat / 16) '0', hexDigits.getD (byte.toNat % 16) '0']

structure Redactor where
  schema : RedactionSchema
  salt : RedactionSalt

section

variable (sha256 : List UInt8 → List UInt8) (toVec : Json → List UInt8)

def Redactor.saltedHash (r : Redactor) (value : Json) : Json :=
  let digest := sha256 (r.salt.toList ++ toVec value)
  .string ("salted:" ++ (digest.take 8).foldl (fun hex byte => hex ++ hexByte byte) "")

/-- One turn of the loop of `apply`. -/
def Redactor.record (r : Redactor) (out : OrderedMap String Json) (field : String × Json) :
    OrderedMap String Json :=
  let (name, value) := field
  match r.schema.policyFor name with
  | .verbatim vt =>
      match verbatimCheck value vt with
      | some v => out.insert name v
      | none => out.insert name (redactString value)
  | .redactString => out.insert name (redactString value)
  | .saltedHash => out.insert name (r.saltedHash sha256 toVec value)
  | .forbidden => out

def Redactor.apply (r : Redactor) (args : Json) : Json :=
  match args with
  | .object map => .object (map.foldl (r.record sha256 toVec) .empty).entries
  | _ => .object ((OrderedMap.empty).insert "_non_object" (.string "<redacted:?>")).entries

end

/-! ## What an observer may learn

Of a field the log shows the value where its type is the declared one, the
length where it is a string and not to be shown, and the hash where the schema
asks for one. -/

def IsU64 (v : Json) : Prop := ∃ n, asU64 v = some n

def WellTyped : VerbatimType → Json → Prop
  | .string, v => ∃ s, v = .string s
  | .dateString, v => ∃ s, v = .string s ∧ s.utf8ByteSize ≤ 32
  | .u64, v => IsU64 v
  | .bool, v => ∃ b, v = .bool b
  | .u64Array, v => ∃ items, v = .array items ∧ ∀ i ∈ items, IsU64 i
  | .u64ArrayMax max, v => ∃ items, v = .array items ∧ items.length ≤ max ∧ ∀ i ∈ items, IsU64 i
  | .stringArray, v => ∃ items, v = .array items ∧ ∀ i ∈ items, ∃ s, i = .string s

/-- Strings of one length, or no strings. -/
def SameLength (v w : Json) : Prop :=
  (∃ s t, v = .string s ∧ w = .string t ∧ s.utf8ByteSize = t.utf8ByteSize) ∨
    ((∀ s, v ≠ .string s) ∧ ∀ t, w ≠ .string t)

def AgreeOn : FieldPolicy → Json → Json → Prop
  | .verbatim vt, v, w =>
      (WellTyped vt v ∨ WellTyped vt w → v = w) ∧
        (¬WellTyped vt v → ¬WellTyped vt w → SameLength v w)
  | .redactString, v, w => SameLength v w
  | .saltedHash, v, w => v = w
  | .forbidden, _, _ => True

structure SameInformation (schema : RedactionSchema) (a b : JsonMap) : Prop where
  keys : ∀ key, a.get key = none ↔ b.get key = none
  values : ∀ key v w, a.get key = some v → b.get key = some w →
    AgreeOn (schema.policyFor key) v w

theorem asStr_eq_some {v : Json} {s : String} : v.asStr = some s ↔ v = .string s := by
  cases v <;> simp [Json.asStr]

theorem isSome_asStr {v : Json} : v.asStr.isSome = true ↔ ∃ s, v = .string s := by
  simp only [Option.isSome_iff_exists, asStr_eq_some]

theorem asArray_eq_some {v : Json} {items : List Json} :
    v.asArray = some items ↔ v = .array items := by
  cases v <;> simp [Json.asArray]

/-- The check is the declared type, and what it returns is the value. -/
theorem verbatimCheck_eq_some {value v : Json} {vt : VerbatimType} :
    verbatimCheck value vt = some v ↔ WellTyped vt value ∧ v = value := by
  have hu64 : ∀ w, (asU64 w).isSome = true ↔ IsU64 w := fun w => Option.isSome_iff_exists
  have harray : ∀ (p : List Json → Bool) (P : List Json → Prop),
      (∀ items, p items = true ↔ P items) →
      (((value.asArray.filter p).map fun _ => value) = some v ↔
        (∃ items, value = .array items ∧ P items) ∧ v = value) := by
    intro p P hp
    simp only [Option.map_eq_some_iff, Option.filter_eq_some_iff, asArray_eq_some]
    constructor
    · rintro ⟨items, ⟨hitems, hall⟩, rfl⟩
      exact ⟨⟨items, hitems, (hp items).mp hall⟩, rfl⟩
    · rintro ⟨⟨items, hitems, hall⟩, rfl⟩
      exact ⟨items, ⟨hitems, (hp items).mpr hall⟩, rfl⟩
  cases vt with
  | string => cases value <;> simp [verbatimCheck, WellTyped, Json.asStr, eq_comm]
  | dateString =>
      simp only [verbatimCheck, WellTyped, Option.map_eq_some_iff, Option.filter_eq_some_iff,
        asStr_eq_some, DATE_STRING_MAX_BYTES]
      constructor
      · rintro ⟨s, ⟨hs, hlen⟩, rfl⟩
        exact ⟨⟨s, hs, of_decide_eq_true hlen⟩, rfl⟩
      · rintro ⟨⟨s, hs, hlen⟩, rfl⟩
        exact ⟨s, ⟨hs, decide_eq_true hlen⟩, rfl⟩
  | u64 =>
      simp only [verbatimCheck, WellTyped, IsU64, Option.map_eq_some_iff, eq_comm (a := v)]
      exact ⟨fun ⟨n, hn, heq⟩ => ⟨⟨n, hn⟩, heq⟩, fun ⟨⟨n, hn⟩, heq⟩ => ⟨n, hn, heq⟩⟩
  | bool => cases value <;> simp [verbatimCheck, WellTyped, Json.asBool, eq_comm]
  | u64Array => exact harray _ _ fun items => by simp [List.all_eq_true, hu64]
  | u64ArrayMax max => exact harray _ _ fun items => by simp [List.all_eq_true, hu64]
  | stringArray => exact harray _ _ fun items => by simp [List.all_eq_true, isSome_asStr]

theorem verbatimCheck_eq_none {value : Json} {vt : VerbatimType} :
    verbatimCheck value vt = none ↔ ¬WellTyped vt value := by
  constructor
  · intro hnone htyped
    rw [verbatimCheck_eq_some.mpr ⟨htyped, rfl⟩] at hnone
    cases hnone
  · intro htyped
    cases h : verbatimCheck value vt with
    | none => rfl
    | some v => exact absurd (verbatimCheck_eq_some.mp h).1 htyped

theorem redactString_eq_of_sameLength {v w : Json} (h : SameLength v w) :
    redactString v = redactString w := by
  rcases h with ⟨s, t, rfl, rfl, hlen⟩ | ⟨hv, hw⟩
  · simp only [redactString, hlen]
  · have hother : ∀ u : Json, (∀ s, u ≠ .string s) → redactString u = .string "<redacted:?>" := by
      intro u hu
      cases u <;> first | rfl | exact absurd rfl (hu _)
    rw [hother v hv, hother w hw]

/-! ## What is recorded for one field -/

section

variable (sha256 : List UInt8 → List UInt8) (toVec : Json → List UInt8)

/-- The value that stands in the record, if the field does. -/
def Redactor.recorded (r : Redactor) (name : String) (value : Json) : Option Json :=
  match r.schema.policyFor name with
  | .verbatim vt => some ((verbatimCheck value vt).getD (redactString value))
  | .redactString => some (redactString value)
  | .saltedHash => some (r.saltedHash sha256 toVec value)
  | .forbidden => none

theorem Redactor.record_eq (r : Redactor) (out : OrderedMap String Json) (name : String)
    (value : Json) :
    r.record sha256 toVec out (name, value) =
      match r.recorded sha256 toVec name value with
      | some v => out.insert name v
      | none => out := by
  cases hpolicy : r.schema.policyFor name with
  | verbatim vt =>
      cases hcheck : verbatimCheck value vt <;>
        simp [Redactor.record, Redactor.recorded, hpolicy, hcheck]
  | redactString => simp only [Redactor.record, Redactor.recorded, hpolicy]
  | saltedHash => simp only [Redactor.record, Redactor.recorded, hpolicy]
  | forbidden => simp only [Redactor.record, Redactor.recorded, hpolicy]

/-- Fields that agree are recorded alike. -/
theorem Redactor.recorded_eq (r : Redactor) {name : String} {v w : Json}
    (h : AgreeOn (r.schema.policyFor name) v w) :
    r.recorded sha256 toVec name v = r.recorded sha256 toVec name w := by
  unfold Redactor.recorded
  cases hpolicy : r.schema.policyFor name with
  | verbatim vt =>
      rw [hpolicy] at h
      obtain ⟨hsame, hlength⟩ := h
      by_cases htyped : WellTyped vt v ∨ WellTyped vt w
      · rw [hsame htyped]
      · have hv : ¬WellTyped vt v := fun hv => htyped (.inl hv)
        have hw : ¬WellTyped vt w := fun hw => htyped (.inr hw)
        simp only [verbatimCheck_eq_none.mpr hv, verbatimCheck_eq_none.mpr hw, Option.getD_none,
          redactString_eq_of_sameLength (hlength hv hw)]
  | redactString =>
      rw [hpolicy] at h
      simp only [redactString_eq_of_sameLength h]
  | saltedHash =>
      rw [hpolicy] at h
      have hvw : v = w := h
      rw [hvw]
  | forbidden => rfl

/-- The loop has recorded the fields that it has seen. -/
theorem Redactor.get_foldl_record (r : Redactor) {fields : List (String × Json)}
    (hnodup : (fields.map Prod.fst).Nodup) (out : OrderedMap String Json) (key : String) :
    (fields.foldl (r.record sha256 toVec) out).get key =
      (((fields.find? fun entry => entry.1 == key).map Prod.snd).bind
        (r.recorded sha256 toVec key)).or (out.get key) := by
  induction fields generalizing out with
  | nil => rfl
  | cons field rest ih =>
      obtain ⟨name, value⟩ := field
      obtain ⟨hnew, hrest⟩ := List.nodup_cons.mp hnodup
      rw [List.foldl_cons, ih hrest, r.record_eq]
      by_cases hkey : name = key
      · subst hkey
        have hnone : (rest.find? fun entry => entry.1 == name) = none := by
          refine List.find?_eq_none.mpr fun entry hentry heq => hnew ?_
          exact List.mem_map.mpr ⟨entry, hentry, by simpa using heq⟩
        rw [hnone, List.find?_cons_of_pos (by simp)]
        cases hrecorded : r.recorded sha256 toVec name value <;> simp [hrecorded]
      · rw [List.find?_cons_of_neg (by simpa using hkey)]
        congr 1
        cases r.recorded sha256 toVec name value with
        | none => rfl
        | some v => rw [OrderedMap.get_insert, if_neg (Ne.symm hkey)]

/-- What `apply` makes of an argument object. -/
def Redactor.redacted (r : Redactor) (args : JsonMap) : OrderedMap String Json :=
  args.entries.foldl (r.record sha256 toVec) .empty

theorem Redactor.get_redacted (r : Redactor) (args : JsonMap) (key : String) :
    (r.redacted sha256 toVec args).get key =
      (args.get key).bind (r.recorded sha256 toVec key) := by
  unfold Redactor.redacted
  rw [r.get_foldl_record sha256 toVec args.nodup, OrderedMap.get_empty, Option.or_none]
  rfl

theorem Redactor.apply_eq_of_sameInformation (r : Redactor) {a b : JsonMap}
    (h : SameInformation r.schema a b) :
    r.apply sha256 toVec (.object a.entries) = r.apply sha256 toVec (.object b.entries) := by
  have hmap : r.redacted sha256 toVec a = r.redacted sha256 toVec b := by
    refine OrderedMap.ext_get fun key => ?_
    rw [r.get_redacted, r.get_redacted]
    cases ha : a.get key with
    | none => rw [(h.keys key).mp ha]
    | some v =>
        cases hb : b.get key with
        | none =>
            rw [(h.keys key).mpr hb] at ha
            cases ha
        | some w => exact r.recorded_eq sha256 toVec (h.values key v w ha hb)
  exact congrArg (fun m => Json.object m.entries) hmap

/-! ## What never stands in the record -/

/-- Every field that stands in the record is allowed to, and its value is one
    the loop has put there. -/
theorem Redactor.mem_foldl_record (r : Redactor) {fields : List (String × Json)}
    {out : OrderedMap String Json} {p : String × Json}
    (h : p ∈ (fields.foldl (r.record sha256 toVec) out).entries) :
    p ∈ out.entries ∨ ∃ field ∈ fields, p.1 = field.1 ∧
      r.recorded sha256 toVec field.1 field.2 = some p.2 := by
  induction fields generalizing out with
  | nil => exact .inl h
  | cons field rest ih =>
      obtain ⟨name, value⟩ := field
      rcases ih h with h | ⟨field, hfield, hname, hvalue⟩
      · rw [r.record_eq] at h
        cases hrecorded : r.recorded sha256 toVec name value with
        | none =>
            rw [hrecorded] at h
            exact .inl h
        | some v =>
            rw [hrecorded] at h
            rcases OrderedMap.mem_insert h with rfl | h
            · exact .inr ⟨(name, value), List.mem_cons_self, rfl, hrecorded⟩
            · exact .inl h
      · exact .inr ⟨field, List.mem_cons_of_mem _ hfield, hname, hvalue⟩

theorem Redactor.recorded_forbidden {r : Redactor} {name : String}
    (h : r.schema.policyFor name = .forbidden) (value : Json) :
    r.recorded sha256 toVec name value = none := by
  simp only [Redactor.recorded, h]

/-- No tool forbids the name that stands for what is not an object. -/
theorem policyFor_nonObject (tool : ToolName) :
    (redactionSchema tool).policyFor "_non_object" = .redactString := by
  cases tool <;> decide

theorem Redactor.forbidden_not_mem {r : Redactor} {tool : ToolName}
    (hr : r.schema = redactionSchema tool) {args : Json} {fields : List (String × Json)}
    (h : r.apply sha256 toVec args = .object fields) {key : String}
    (hkey : r.schema.policyFor key = .forbidden) : key ∉ fields.map Prod.fst := by
  intro hin
  obtain ⟨p, hp, rfl⟩ := List.mem_map.mp hin
  by_cases hobject : ∃ map, args = .object map
  · obtain ⟨map, rfl⟩ := hobject
    obtain rfl := Json.object.inj h
    rcases r.mem_foldl_record sha256 toVec hp with hp | ⟨field, -, hname, hvalue⟩
    · exact List.not_mem_nil hp
    · rw [hname] at hkey
      rw [Redactor.recorded_forbidden sha256 toVec hkey] at hvalue
      cases hvalue
  · have hfields : fields = [("_non_object", .string "<redacted:?>")] := by
      cases args <;> first | exact (Json.object.inj h).symm | exact absurd ⟨_, rfl⟩ hobject
    rw [hfields, List.mem_singleton] at hp
    rw [hp, hr, policyFor_nonObject] at hkey
    cases hkey

/-! ## The record -/

theorem Redactor.canonical_recorded (r : Redactor) {name : String} {value v : Json}
    (hvalue : Canonical value) (h : r.recorded sha256 toVec name value = some v) : Canonical v := by
  have hstring : Canonical (redactString value) := by
    cases value <;> exact .string _
  unfold Redactor.recorded at h
  split at h
  · rename_i vt _
    obtain rfl := Option.some.inj h
    cases hcheck : verbatimCheck value vt with
    | none => exact hstring
    | some w => exact (verbatimCheck_eq_some.mp hcheck).2 ▸ hvalue
  · exact Option.some.inj h ▸ hstring
  · exact Option.some.inj h ▸ .string _
  · cases h

theorem Redactor.canonical_apply (r : Redactor) {args : Json} (hargs : Canonical args) :
    Canonical (r.apply sha256 toVec args) := by
  have hother : Canonical (.object ((OrderedMap.empty).insert "_non_object"
      (.string "<redacted:?>")).entries) := by
    refine .object (OrderedMap.sorted _) fun p hp => ?_
    rcases OrderedMap.mem_insert hp with rfl | hp
    · exact .string _
    · exact absurd hp List.not_mem_nil
  cases hargs with
  | object hsorted hfields =>
      refine .object (OrderedMap.sorted _) fun p hp => ?_
      rcases r.mem_foldl_record sha256 toVec hp with hp | ⟨field, hfield, -, hvalue⟩
      · exact absurd hp List.not_mem_nil
      · exact r.canonical_recorded sha256 toVec (hfields field hfield) hvalue
  | _ => exact hother

def Redactor.applyValue (r : Redactor) (args : Value) : Value :=
  ⟨r.apply sha256 toVec args.json, r.canonical_apply sha256 toVec args.canonical⟩

/-- `redact`: only a `tool_start` holds what a caller has written. -/
def redact (record : AuditRecord) (salt : RedactionSalt) : AuditRecord :=
  match record.payload with
  | .toolStart start =>
      let redactor : Redactor := ⟨redactionSchema start.tool, salt⟩
      { record with
        payload := .toolStart
          { start with
            argumentsRedacted := redactor.applyValue sha256 toVec start.argumentsRedacted } }
  | _ => record

/-- A `tool_start` of `tool` as it is recorded for the arguments. -/
structure IsRecorded (tool : ToolName) (salt : RedactionSalt) (args : JsonMap)
    (record : AuditRecord) (start : ToolStart) : Prop where
  hpayload : record.payload = .toolStart start
  htool : start.tool = tool
  harguments : start.argumentsRedacted.json =
    Redactor.apply sha256 toVec ⟨redactionSchema tool, salt⟩ (.object args.entries)

theorem redact_eq (salt : RedactionSalt) {record : AuditRecord} {start : ToolStart}
    (h : record.payload = .toolStart start) :
    redact sha256 toVec record salt =
      { record with
        payload := .toolStart
          { start with
            argumentsRedacted :=
              Redactor.applyValue sha256 toVec ⟨redactionSchema start.tool, salt⟩
                start.argumentsRedacted } } := by
  unfold redact
  rw [h]

/-- **Two argument objects that agree where the schema shows something are
    redacted to one.**  No forbidden key comes through, and redacting the records
    once more, under any salt, gives both the same arguments and leaves the rest
    of them alone. -/
theorem redaction_noninterference (tool : ToolName) (salt : RedactionSalt) (a b : JsonMap)
    (h : SameInformation (redactionSchema tool) a b) :
    Redactor.apply sha256 toVec ⟨redactionSchema tool, salt⟩ (.object a.entries) =
        Redactor.apply sha256 toVec ⟨redactionSchema tool, salt⟩ (.object b.entries) ∧
      (∀ fields key,
        Redactor.apply sha256 toVec ⟨redactionSchema tool, salt⟩ (.object a.entries) =
            .object fields →
          (redactionSchema tool).policyFor key = .forbidden → key ∉ fields.map Prod.fst) ∧
      ∀ salt' recordA recordB startA startB,
        IsRecorded sha256 toVec tool salt a recordA startA →
          IsRecorded sha256 toVec tool salt b recordB startB →
            ∃ arguments : Value,
              redact sha256 toVec recordA salt' =
                  { recordA with
                    payload := .toolStart { startA with argumentsRedacted := arguments } } ∧
                redact sha256 toVec recordB salt' =
                  { recordB with
                    payload := .toolStart { startB with argumentsRedacted := arguments } } := by
  let redactor : Redactor := ⟨redactionSchema tool, salt⟩
  have hsame : redactor.apply sha256 toVec (.object a.entries) =
      redactor.apply sha256 toVec (.object b.entries) :=
    redactor.apply_eq_of_sameInformation sha256 toVec h
  refine ⟨hsame, fun fields key hfields hkey => ?_, ?_⟩
  · exact Redactor.forbidden_not_mem sha256 toVec (r := redactor) rfl hfields hkey
  · intro salt' recordA recordB startA startB hA hB
    have harguments : startA.argumentsRedacted = startB.argumentsRedacted := by
      have hjson := hA.harguments.trans (hsame.trans hB.harguments.symm)
      generalize startA.argumentsRedacted = va at hjson ⊢
      generalize startB.argumentsRedacted = vb at hjson ⊢
      cases va
      cases vb
      simpa using hjson
    refine ⟨_, redact_eq sha256 toVec salt' hA.hpayload, ?_⟩
    rw [redact_eq sha256 toVec salt' hB.hpayload, harguments, hA.htool, hB.htool]

end

/-! ## Two drafts -/

/-- Objects with one list of keys agree when their fields do, one by one. -/
theorem sameInformation_of_forall₂ {schema : RedactionSchema} {a b : JsonMap}
    (h : List.Forall₂ (fun p q : String × Json =>
      p.1 = q.1 ∧ AgreeOn (schema.policyFor p.1) p.2 q.2) a.entries b.entries) :
    SameInformation schema a b := by
  have hget : ∀ key, (a.get key = none ∧ b.get key = none) ∨
      ∃ v w, a.get key = some v ∧ b.get key = some w ∧ AgreeOn (schema.policyFor key) v w := by
    intro key
    unfold JsonMap.get
    generalize a.entries = ps at h ⊢
    generalize b.entries = qs at h ⊢
    induction h with
    | nil => exact .inl ⟨rfl, rfl⟩
    | @cons p q ps qs hpq hrest ih =>
        obtain ⟨hname, hagree⟩ := hpq
        by_cases hkey : p.1 = key
        · subst hkey
          rw [List.find?_cons_of_pos (by simp), List.find?_cons_of_pos (by simp [hname])]
          exact .inr ⟨p.2, q.2, rfl, rfl, hagree⟩
        · rw [List.find?_cons_of_neg (by simpa using hkey),
            List.find?_cons_of_neg (by simpa [← hname] using hkey)]
          exact ih
  refine ⟨fun key => ?_, fun key v w ha hb => ?_⟩
  · rcases hget key with ⟨ha, hb⟩ | ⟨v, w, ha, hb, -⟩
    · simp [ha, hb]
    · simp [ha, hb]
  · rcases hget key with ⟨hnone, -⟩ | ⟨v', w', ha', hb', hagree⟩
    · rw [hnone] at ha
      cases ha
    · rw [ha'] at ha
      rw [hb'] at hb
      exact Option.some.inj ha ▸ Option.some.inj hb ▸ hagree

def zeroSalt : RedactionSalt := Vector.replicate 32 0

/-- The subject and the mistyped number are as long as in the other draft. -/
def draftEntries : List (String × Json) :=
  [("in_reply_to_uid", .string "payroll"), ("password", .string "hunter2"),
   ("subject", .string "merger"), ("to", .string "board@example.org")]

theorem draftEntries_nodup : (draftEntries.map Prod.fst).Nodup := by decide

def draftArgs : JsonMap := ⟨draftEntries, draftEntries_nodup⟩

def otherDraftEntries : List (String × Json) :=
  [("in_reply_to_uid", .string "picnics"), ("password", .null),
   ("subject", .string "summer"), ("to", .string "board@example.org")]

theorem otherDraftEntries_nodup : (otherDraftEntries.map Prod.fst).Nodup := by decide

def otherDraftArgs : JsonMap := ⟨otherDraftEntries, otherDraftEntries_nodup⟩

theorem sameInformation_drafts :
    SameInformation (redactionSchema .createDraft) draftArgs otherDraftArgs := by
  have huid : (redactionSchema .createDraft).policyFor "in_reply_to_uid" = .verbatim .u64 := by
    decide
  have hpassword : (redactionSchema .createDraft).policyFor "password" = .forbidden := by decide
  have hsubject : (redactionSchema .createDraft).policyFor "subject" = .redactString := by decide
  have hto : (redactionSchema .createDraft).policyFor "to" = .saltedHash := by decide
  have hmistyped : ∀ s, ¬WellTyped .u64 (.string s) := by
    rintro s ⟨n, hn⟩
    cases hn
  refine sameInformation_of_forall₂ (.cons ⟨rfl, ?_⟩ (.cons ⟨rfl, ?_⟩ (.cons ⟨rfl, ?_⟩
    (.cons ⟨rfl, ?_⟩ .nil))))
  · rw [huid]
    refine ⟨fun htyped => ?_, fun _ _ => .inl ⟨_, _, rfl, rfl, by decide⟩⟩
    rcases htyped with htyped | htyped
    · exact absurd htyped (hmistyped _)
    · exact absurd htyped (hmistyped _)
  · rw [hpassword]
    trivial
  · rw [hsubject]
    exact .inl ⟨_, _, rfl, rfl, by decide⟩
  · rw [hto]
    rfl

theorem redaction_noninterference_drafts :
    Redactor.apply (fun bytes => bytes) (fun _ => []) ⟨redactionSchema .createDraft, zeroSalt⟩
        (.object draftArgs.entries) =
      Redactor.apply (fun bytes => bytes) (fun _ => []) ⟨redactionSchema .createDraft, zeroSalt⟩
        (.object otherDraftArgs.entries) :=
  (redaction_noninterference (fun bytes => bytes) (fun _ => []) .createDraft zeroSalt draftArgs
    otherDraftArgs sameInformation_drafts).1

end RustyImap.Redaction
