import RustyImap.ReadLists
import RustyImap.ToolRefinement

/-!
# Decoding tool arguments

`parse_args` (`rimap-server/src/mcp/tool_catalog.rs`) hands the argument object to
serde.  The input structures are those of `tools/retrieval/search.rs`,
`tools/retrieval/fetch_message.rs` and `tools/compose/message_builder.rs`, the
integers are those of `rimap-core/src/lenient_int.rs`.

What serde derives: a key that is missing or `null` is `None` for an optional
field, an unknown key is ignored, a structure inside may also be an array of all
its fields.  The text of a refusal is serde's own and left out.
-/

namespace RustyImap

/-! ## Values -/

def JsonMap.empty : JsonMap := ⟨[], List.nodup_nil⟩

namespace Json

/-- `Option<T>`: `null` and a missing key are `None`. -/
def optional {α : Type} (decode : Json → Option α) : Option Json → Option (Option α)
  | none => some none
  | some .null => some none
  | some v => (decode v).map some

def required {α : Type} (decode : Json → Option α) (v : Option Json) : Option α := v.bind decode

def asVec {α : Type} (decode : Json → Option α) (v : Json) : Option (List α) :=
  v.asArray.bind fun items => items.mapM decode

/-- Once it is decoded, an optional field is what a plain lookup finds. -/
theorem optional_eq_some {α : Type} {decode : Json → Option α} (hnull : decode .null = none)
    {v : Option Json} {o : Option α} (h : optional decode v = some o) : o = v.bind decode := by
  unfold optional at h
  split at h
  · exact (Option.some.inj h).symm
  · rw [← Option.some.inj h, Option.bind_some, hnull]
  · obtain ⟨a, ha, rfl⟩ := Option.map_eq_some_iff.mp h
    rw [Option.bind_some, ha]

/-- An array and what it is decoded to are empty together. -/
theorem asVec_eq_some {α : Type} {decode : Json → Option α} {v : Json} {l : List α}
    (h : asVec decode v = some l) : ∃ items, v.asArray = some items ∧ (items = [] ↔ l = []) := by
  obtain ⟨items, hitems, hl⟩ := Option.bind_eq_some_iff.mp h
  exact ⟨items, hitems, ReadLists.eq_nil_iff_of_mapM hl⟩

end Json

/-! ## Integers -/

def digitsToNat (s : List Char) : Option Nat :=
  if s.isEmpty || !s.all fun c => '0' ≤ c && c ≤ '9' then none
  else some (s.foldl (fun n c => 10 * n + (c.toNat - '0'.toNat)) 0)

inductive IntOrStr where
  | int (n : Int)
  | str (s : String)

/-- A number is taken when its literal is an integer that fits `i64`. -/
def IntOrStr.decode : Json → Option IntOrStr
  | .number literal =>
      match literal.toList with
      | '-' :: digits =>
          (digitsToNat digits).bind fun n =>
            if 0 < n ∧ n ≤ 2 ^ 63 then some (.int (-(n : Int))) else none
      | digits => (digitsToNat digits).bind fun n => if n < 2 ^ 63 then some (.int n) else none
  | .string s => some (.str s)
  | _ => none

/-- `intorstr_to_int`, for an unsigned type below `bound`. -/
def intorstrToInt (bound : Nat) : IntOrStr → Option Nat
  | .int n => if 0 ≤ n ∧ n < bound then some n.toNat else none
  | .str s => (digitsToNat s.toList).bind fun n => if n < bound then some n else none

def lenientInt (bound : Nat) (v : Json) : Option Nat :=
  (IntOrStr.decode v).bind (intorstrToInt bound)

abbrev NonZeroU32 := { n : Nat // 0 < n ∧ n < 2 ^ 32 }

def NonZeroU32.one : NonZeroU32 := ⟨1, by decide⟩

def nonzeroU32 (v : Json) : Option NonZeroU32 :=
  (lenientInt (2 ^ 32) v).bind fun n =>
    if h : 0 < n ∧ n < 2 ^ 32 then some ⟨n, h⟩ else none

def optUsize : Option Json → Option (Option Nat) := Json.optional (lenientInt (2 ^ 64))

def optU64 : Option Json → Option (Option Nat) := Json.optional (lenientInt (2 ^ 64))

def optNonzeroU32 : Option Json → Option (Option NonZeroU32) := Json.optional nonzeroU32

def optString : Option Json → Option (Option String) := Json.optional Json.asStr

def optBool : Option Json → Option (Option Bool) := Json.optional Json.asBool

/-! ## `search` -/

structure HeaderInput where
  name : String
  value : String
deriving DecidableEq, Repr

def HeaderInput.decode : Json → Option HeaderInput
  | .object fields => do
      return ⟨← Json.required Json.asStr (fields.lookup "name"),
        ← Json.required Json.asStr (fields.lookup "value")⟩
  | .array [name, value] => do
      return ⟨← name.asStr, ← value.asStr⟩
  | _ => none

structure SearchInput where
  folder : String
  sender : Option String             -- `from`
  recipient : Option String          -- `to`
  cc : Option String
  bcc : Option String
  subject : Option String
  body : Option String
  text : Option String
  headers : Option (List HeaderInput)
  larger : Option Nat
  smaller : Option Nat
  since : Option String
  before : Option String
  sentSince : Option String
  sentBefore : Option String
  seen : Option Bool
  answered : Option Bool
  flagged : Option Bool
  draft : Option Bool
  hasAttachment : Option Bool
  advancedQuery : Option String
  limit : Option Nat
  offset : Option Nat
  newestFirst : Option Bool
  bodyPreviewBytes : Option Nat
  threadOfUid : Option NonZeroU32
deriving DecidableEq, Repr

def SearchInput.decode (args : JsonMap) : Option SearchInput := do
  return {
    folder := ← Json.required Json.asStr (args.get "folder")
    sender := ← optString (args.get "from")
    recipient := ← optString (args.get "to")
    cc := ← optString (args.get "cc")
    bcc := ← optString (args.get "bcc")
    subject := ← optString (args.get "subject")
    body := ← optString (args.get "body")
    text := ← optString (args.get "text")
    headers := ← Json.optional (Json.asVec HeaderInput.decode) (args.get "headers")
    larger := ← optU64 (args.get "larger")
    smaller := ← optU64 (args.get "smaller")
    since := ← optString (args.get "since")
    before := ← optString (args.get "before")
    sentSince := ← optString (args.get "sent_since")
    sentBefore := ← optString (args.get "sent_before")
    seen := ← optBool (args.get "seen")
    answered := ← optBool (args.get "answered")
    flagged := ← optBool (args.get "flagged")
    draft := ← optBool (args.get "draft")
    hasAttachment := ← optBool (args.get "has_attachment")
    advancedQuery := ← optString (args.get "advanced_query")
    limit := ← optUsize (args.get "limit")
    offset := ← optUsize (args.get "offset")
    newestFirst := ← optBool (args.get "newest_first")
    bodyPreviewBytes := ← optUsize (args.get "body_preview_bytes")
    threadOfUid := ← optNonzeroU32 (args.get "thread_of_uid") }

/-! ## `fetch_message` -/

structure FetchMessageInput where
  folder : String
  uid : NonZeroU32
  includeHtml : Option Bool
  maxBodyBytes : Option Nat
  includeHeaders : Option (List String)
deriving DecidableEq, Repr

def FetchMessageInput.decode (args : JsonMap) : Option FetchMessageInput := do
  return {
    folder := ← Json.required Json.asStr (args.get "folder")
    uid := ← Json.required nonzeroU32 (args.get "uid")
    includeHtml := ← optBool (args.get "include_html")
    maxBodyBytes := ← optUsize (args.get "max_body_bytes")
    includeHeaders := ← Json.optional (Json.asVec Json.asStr) (args.get "include_headers") }

/-! ## `create_draft` -/

structure AddressInput where
  name : Option String
  address : String
deriving DecidableEq, Repr

def AddressInput.decode : Json → Option AddressInput
  | .object fields => do
      return ⟨← optString (fields.lookup "name"),
        ← Json.required Json.asStr (fields.lookup "address")⟩
  | .array [name, address] => do
      return ⟨← optString (some name), ← address.asStr⟩
  | _ => none

structure AttachmentInput where
  path : String
  filename : Option String
  contentType : Option String
deriving DecidableEq, Repr

def AttachmentInput.decode : Json → Option AttachmentInput
  | .object fields => do
      return ⟨← Json.required Json.asStr (fields.lookup "path"),
        ← optString (fields.lookup "filename"), ← optString (fields.lookup "content_type")⟩
  | .array [path, filename, contentType] => do
      return ⟨← path.asStr, ← optString (some filename), ← optString (some contentType)⟩
  | _ => none

structure ComposeInput where
  recipients : List AddressInput     -- `to`
  cc : Option (List AddressInput)
  bcc : Option (List AddressInput)
  subject : String
  bodyText : String
  bodyHtml : Option String
  attachments : Option (List AttachmentInput)
  inReplyToUid : Option NonZeroU32
  inReplyToFolder : Option String
deriving DecidableEq, Repr

def ComposeInput.decode (args : JsonMap) : Option ComposeInput := do
  return {
    recipients := ← Json.required (Json.asVec AddressInput.decode) (args.get "to")
    cc := ← Json.optional (Json.asVec AddressInput.decode) (args.get "cc")
    bcc := ← Json.optional (Json.asVec AddressInput.decode) (args.get "bcc")
    subject := ← Json.required Json.asStr (args.get "subject")
    bodyText := ← Json.required Json.asStr (args.get "body_text")
    bodyHtml := ← optString (args.get "body_html")
    attachments := ← Json.optional (Json.asVec AttachmentInput.decode) (args.get "attachments")
    inReplyToUid := ← optNonzeroU32 (args.get "in_reply_to_uid")
    inReplyToFolder := ← optString (args.get "in_reply_to_folder") }

end RustyImap
