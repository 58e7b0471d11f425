import RustyImap.ExportMessages
import RustyImap.ForwardMessage
import RustyImap.IntegerSchemas

/-!
# The inputs of the mailbox and retrieval tools

The input structures of `rimap-server/src/tools/mailbox/`, of the retrieval tools and
of `forward`, and how `parse_args` decodes each from the argument object.  Those of
`search`, `fetch_message` and `create_draft` are in `ToolArguments`.
-/

namespace RustyImap

open RustyImap.LenientInt

/-- `#[serde(flatten)]`: the selector is read from the argument object itself. -/
def LenientInt.UidSelector.flattened (args : JsonMap) : Option UidSelector :=
  UidSelector.deserialize (.object args.entries)

/-! ## Mailbox tools -/

structure FlagInput where
  folder : String
  target : UidSelector
  expectedUidvalidity : Option Nat

def FlagInput.decode (args : JsonMap) : Option FlagInput := do
  return {
    folder := ← Json.required Json.asStr (args.get "folder")
    target := ← UidSelector.flattened args
    expectedUidvalidity := ← optU32 (args.get "expected_uidvalidity") }

structure LabelInput where
  folder : String
  target : UidSelector
  label : String
  expectedUidvalidity : Option Nat

def LabelInput.decode (args : JsonMap) : Option LabelInput := do
  return {
    folder := ← Json.required Json.asStr (args.get "folder")
    target := ← UidSelector.flattened args
    label := ← Json.required Json.asStr (args.get "label")
    expectedUidvalidity := ← optU32 (args.get "expected_uidvalidity") }

structure ListLabelsInput where
  folder : String
  uid : NonZeroU32
  expectedUidvalidity : Option Nat

def ListLabelsInput.decode (args : JsonMap) : Option ListLabelsInput := do
  return {
    folder := ← Json.required Json.asStr (args.get "folder")
    uid := ← Json.required nonzeroU32 (args.get "uid")
    expectedUidvalidity := ← optU32 (args.get "expected_uidvalidity") }

structure MoveMessageInput where
  folder : String
  destination : String
  target : UidSelector
  expectedSourceUidvalidity : Option Nat

def MoveMessageInput.decode (args : JsonMap) : Option MoveMessageInput := do
  return {
    folder := ← Json.required Json.asStr (args.get "folder")
    destination := ← Json.required Json.asStr (args.get "destination")
    target := ← UidSelector.flattened args
    expectedSourceUidvalidity := ← optU32 (args.get "expected_source_uidvalidity") }

structure DeleteMessageInput where
  folder : String
  uid : NonZeroU32
  expectedUidvalidity : Option Nat

def DeleteMessageInput.decode (args : JsonMap) : Option DeleteMessageInput := do
  return {
    folder := ← Json.required Json.asStr (args.get "folder")
    uid := ← Json.required nonzeroU32 (args.get "uid")
    expectedUidvalidity := ← optU32 (args.get "expected_uidvalidity") }

structure ExpungeInput where
  folder : String

def ExpungeInput.decode (args : JsonMap) : Option ExpungeInput := do
  return ⟨← Json.required Json.asStr (args.get "folder")⟩

structure CreateFolderInput where
  folder : String

def CreateFolderInput.decode (args : JsonMap) : Option CreateFolderInput := do
  return ⟨← Json.required Json.asStr (args.get "folder")⟩

structure RenameFolderInput where
  folder : String
  newFolder : String

def RenameFolderInput.decode (args : JsonMap) : Option RenameFolderInput := do
  return ⟨← Json.required Json.asStr (args.get "folder"),
    ← Json.required Json.asStr (args.get "new_folder")⟩

structure DeleteFolderInput where
  folder : String

def DeleteFolderInput.decode (args : JsonMap) : Option DeleteFolderInput := do
  return ⟨← Json.required Json.asStr (args.get "folder")⟩

/-! ## Retrieval tools -/

structure ListAttachmentsInput where
  folder : String
  uid : NonZeroU32

def ListAttachmentsInput.decode (args : JsonMap) : Option ListAttachmentsInput := do
  return ⟨← Json.required Json.asStr (args.get "folder"),
    ← Json.required nonzeroU32 (args.get "uid")⟩

structure DownloadAttachmentInput where
  folder : String
  uid : NonZeroU32
  partId : String
  destDir : Option String

def DownloadAttachmentInput.decode (args : JsonMap) : Option DownloadAttachmentInput := do
  return {
    folder := ← Json.required Json.asStr (args.get "folder")
    uid := ← Json.required nonzeroU32 (args.get "uid")
    partId := ← Json.required Json.asStr (args.get "part_id")
    destDir := ← optString (args.get "dest_dir") }

/-- `NonZeroU32` as serde itself reads it, from a number only. -/
def plainNonzeroU32 : Json → Option NonZeroU32
  | .number literal => nonzeroU32 (.number literal)
  | _ => none

def Export.ExportMessagesInput.decode (args : JsonMap) : Option Export.ExportMessagesInput := do
  return {
    folder := ← Json.required Json.asStr (args.get "folder")
    uids := ← Json.required (Json.asVec plainNonzeroU32) (args.get "uids")
    expectedUidvalidity := ← Json.required nonzeroU32 (args.get "expected_uidvalidity")
    destDir := ← optString (args.get "dest_dir")
    filename := ← optString (args.get "filename")
    maxTotalBytes := ← optU64 (args.get "max_total_bytes")
    allowPartial := ← optBool (args.get "allow_partial") }

/-! ## `forward` -/

def Compose.ForwardInput.decode (args : JsonMap) : Option Compose.ForwardInput := do
  return {
    folder := ← Json.required Json.asStr (args.get "folder")
    uid := ← Json.required nonzeroU32 (args.get "uid")
    recipients := ← Json.required (Json.asVec AddressInput.decode) (args.get "to")
    cc := ← Json.optional (Json.asVec AddressInput.decode) (args.get "cc")
    bcc := ← Json.optional (Json.asVec AddressInput.decode) (args.get "bcc")
    comment := ← optString (args.get "comment") }

end RustyImap
