import RustyImap.ToolHandlers

/-!
# The retrieval handlers, and the table of handlers

`search`, `fetch_message`, `list_attachments`, `download_attachment`, `export_messages`
and `list_folders` (`rimap-server/src/tools/retrieval/`, `tools/admin/list_folders.rs`)
as programs over calls, and `dispatch_tool` over all handlers.
-/

namespace RustyImap.ToolHandlers

open RustyImap.CallTrees RustyImap.ImapOps
open RustyImap.Compose (validateFolderInput invalidInput)
open RustyImap.ContentParse (Bytes SelectedHeader parseMessageWithHeaders Content ContentLibs)
open RustyImap.Export (ExportMessagesInput ExportMessagesMeta RunPlan FetchLimits FetchOutcome
  Sizes)
open RustyImap.PartNumbering (collectAttachments)
open RustyImap.SessionDispatch (Operation)

/-! ## `fetch_message` and attachments -/

/-- `parse_message_with_headers_async`. -/
def parseWithHeaders (libs : ContentLibs) (raw : Bytes) (wanted : List String) :
    Except RimapError (Content × List SelectedHeader) :=
  match parseMessageWithHeaders libs raw wanted with
  | .ok parsed => .ok parsed
  | .error e => .error (SubCapability.classifyContentError e)

section

variable (account : Account)

def handleFetchMessage (input : FetchMessageInput) :
    Handler SubCapability.FetchMessageResponse := do
  check (validateFolderInput "folder" input.folder)
  let wanted ← check
    (SubCapability.validateIncludeHeaders account.libs.toContentLibs (input.includeHeaders.getD []))
  let raw : Bytes ← imap (fetchBody account input.folder input.uid.val none)
  let (content, selected) ← check (parseWithHeaders account.libs.toContentLibs raw wanted)
  pure (SubCapability.respond account.libs input ⟨raw, content, selected⟩)

structure ListAttachmentsMeta where
  folder : String
  uid : Nat
  attachments : List PartNumbering.AttachmentInfo

def handleListAttachments (input : ListAttachmentsInput) : Handler ListAttachmentsMeta := do
  check (validateFolderInput "folder" input.folder)
  let (msg, _) ← fetchSingleByUid input.folder input.uid.val { bodystructure := true } none
  match msg.bodystructure with
  | none => throw (.internal "server did not return BODYSTRUCTURE")
  | some bodystructure => pure ⟨input.folder, input.uid.val, collectAttachments bodystructure⟩

/-- `walk_attachment_parts_async`. -/
def walkParts (raw : Bytes) : Except RimapError (List PartNumbering.RawPart) :=
  match account.messageParts raw >>= PartNumbering.walkAttachmentParts with
  | .ok parts => .ok parts
  | .error (.malformed reason) => .error (invalidInput ("malformed message: " ++ reason))
  | .error .parserPanic => .error (invalidInput "third-party MIME parser panicked on input")

structure DownloadAttachmentMeta where
  folder : String
  uid : Nat
  partId : String
  path : String
  sizeBytes : Nat

def handleDownloadAttachment (input : DownloadAttachmentInput) :
    Handler DownloadAttachmentMeta := do
  check (validateFolderInput "folder" input.folder)
  if input.partId.isEmpty then throw (invalidInput "part_id must not be empty")
  else do
    let dest : String ← await (.resolveDestDir input.destDir)
    let raw : Bytes ← imap (fetchBody account input.folder input.uid.val none)
    let parts ← check (walkParts account raw)
    match parts.find? fun part => part.partId == input.partId with
    | none => throw (.authz .notFound ("part_id " ++ input.partId ++ " not found in message"))
    | some part => do
        let path : String ←
          await (.writeAttachment dest (part.filename.getD "attachment") part.body)
        -- for a warning only: what goes wrong here is not reported
        let _ ← attempt
          (.imap (fetch input.folder [input.uid.val] { bodystructure := true } none))
        pure ⟨input.folder, input.uid.val, input.partId, path, part.body.length⟩

/-! ## `search` -/

def toStructured (q : SubCapability.StructuredQuery SearchOps.Date) :
    SearchOps.StructuredQuery where
  from_ := q.sender
  to_ := q.recipient
  subject := q.subject
  since := q.since
  before := q.before
  seen := q.seen
  hasAttachment := q.hasAttachment
  cc := q.cc
  bcc := q.bcc
  body := q.body
  text := q.text
  headers := q.headers.map fun headers => headers.map fun h => ⟨h.name, h.value⟩
  larger := q.larger
  smaller := q.smaller
  sentSince := q.sentSince
  sentBefore := q.sentBefore
  answered := q.answered
  flagged := q.flagged
  draft := q.draft

/-- The reason of a text that cannot be quoted. -/
def refusal {α : Type} : Except ImapError α → Except String α
  | .ok a => .ok a
  | .error (.invalidInput _ reason) => .error reason
  | .error _ => .error ""

def searchKey : SubCapability.SearchQuery SearchOps.Date → Except String String
  | .raw query => .ok query
  | .structured q => refusal (SearchOps.structuredToKey (toStructured q))

/-- `str::split_whitespace`. -/
def splitWhitespace (s : String) : List (List Char) :=
  (s.toList.splitOnP isWhitespace).filter fun word => !word.isEmpty

def parseMessageIdTokens (raw : String) : List String :=
  ((splitWhitespace raw).filter fun tok =>
    tok.head? == some '<' && tok.getLast? == some '>' && decide (2 < utf8Len (.ofList tok))).map
    String.ofList

/-- The loop of `fetch_thread_headers`. -/
def threadHeaders : List SelectedHeader → Option String × List String → Option String × List String
  | [], found => found
  | header :: rest, (own, ancestors) =>
      if header.name = "Message-ID" then threadHeaders rest (header.values.head?, ancestors)
      else if header.name = "References" ∨ header.name = "In-Reply-To" then
        threadHeaders rest (own, ancestors ++ header.values.flatMap parseMessageIdTokens)
      else threadHeaders rest (own, ancestors)

def fetchThreadHeaders (folder : String) (target : Uid) :
    Handler (Option String × List String) := do
  let raw : Bytes ← imap (fetchBody account folder target none)
  let (_, selected) ← check (parseWithHeaders account.libs.toContentLibs raw
    ["Message-ID", "References", "In-Reply-To"])
  let (own, ancestors) := threadHeaders selected (none, [])
  pure (own, SearchOps.capAncestorIds ancestors)

/-- A result without the fields of its envelope. -/
structure SearchResultEntry where
  uid : Uid
  bodyPreview : Option (String × Bool)       -- and was it truncated?

/-- `fetch_and_format_page`: the entries in the order of the page. -/
def fetchAndFormatPage (folder : String) (pageUids : List Uid) :
    Handler (List SearchResultEntry) :=
  if pageUids.isEmpty then pure []
  else do
    let (fetched, _) ←
      imap (fetch folder pageUids { envelope := true, flags := true, size := true } none)
    -- a message is taken out of the answer, so that it is listed once
    let found := pageUids.eraseDups.filter fun uid => fetched.any fun m => m.uid == uid
    pure (found.map fun uid => ⟨uid, none⟩)

def MAX_BODY_PREVIEW_BYTES : Nat := 1024

def MAX_PREVIEW_MESSAGES : Nat := 50

def clampPreviewBytes (requested : Option Nat) : Option Nat :=
  (requested.filter fun n => 0 < n).map fun n => min n MAX_BODY_PREVIEW_BYTES

def makePreview (libs : ContentLibs) (bodyText : String) (maxBytes : Nat) :
    Option (String × Bool) :=
  let text := UnicodeFilter.truncateGraphemes libs.toUnicodeLibs bodyText.toList maxBytes
  if text.isEmpty then none
  else some (.ofList text, decide (utf8Len (.ofList text) < utf8Len bodyText))

/-- A body that cannot be fetched or parsed leaves no preview. -/
def fetchBodyPreview (folder : String) (uid : Uid) (maxBytes : Nat) (expected : Option Nat) :
    Handler (Option (String × Bool)) := do
  let answer ← attempt (.imap (fetchBody account folder uid expected))
  match answer with
  | .error _ => pure none
  | .ok raw =>
      match parseMessageWithHeaders account.libs.toContentLibs raw [] with
      | .error _ => pure none
      | .ok (content, _) => pure (makePreview account.libs.toContentLibs content.bodyText maxBytes)

/-- The loop of `attach_body_previews` over the first so many entries. -/
def previewEach (folder : String) (expected : Option Nat) (maxBytes : Nat) :
    (left : Nat) → List SearchResultEntry → Handler (List SearchResultEntry)
  | _, [] => pure []
  | 0, entries => pure entries
  | left + 1, entry :: rest => do
      let preview ← fetchBodyPreview account folder entry.uid maxBytes expected
      let previewed ← previewEach folder expected maxBytes left rest
      pure ({ entry with bodyPreview := preview } :: previewed)

def attachBodyPreviews (folder : String) (expected : Option Nat) (input : SearchInput)
    (messages : List SearchResultEntry) : Handler (List SearchResultEntry) :=
  match clampPreviewBytes input.bodyPreviewBytes with
  | none => pure messages
  | some maxBytes =>
      previewEach account folder expected maxBytes MAX_PREVIEW_MESSAGES messages

structure SearchMeta where
  folder : String
  totalMatched : Nat
  truncated : Bool
  nextOffset : Option Nat
  uidValidity : Option Nat
  fetchSkipped : Nat
  messages : List SearchResultEntry

/-- From the UIDs that were found to the answer, on both paths. -/
def searchPage (input : SearchInput) (uids : List Uid) (uidValidity : Option Nat) :
    Handler SearchMeta := do
  let page := Search.pageWindow ⟨input.limit, input.offset, input.newestFirst⟩ uids
  let entries ← fetchAndFormatPage input.folder page.uids
  let messages ← attachBodyPreviews account input.folder uidValidity input entries
  pure {
    folder := input.folder
    totalMatched := uids.length
    truncated := page.truncated
    nextOffset := page.nextOffset
    uidValidity := uidValidity
    fetchSkipped := page.uids.length - messages.length
    messages := messages }

/-- The UIDs of a thread, the target among them. -/
def withTarget (related : List Uid) (target : Uid) : List Uid :=
  if target ∈ related then related else (related ++ [target]).mergeSort (· ≤ ·)

def handleSearch (input : SearchInput) : Handler SearchMeta := do
  let request ← check (SubCapability.searchRequest account.timeParse input)
  match request with
  | .thread target => do
      let (own, ancestors) ← fetchThreadHeaders account input.folder target.val
      let (related, uidValidity) ←
        imap (.threadRelated input.folder (refusal (SearchOps.threadKey own ancestors)))
      searchPage account input (withTarget related target.val) uidValidity
  | .query query => do
      let (uids, uidValidity) ← imap (.search input.folder (searchKey query))
      searchPage account input uids uidValidity

/-! ## `export_messages` -/

def preflightSizes (folder : String) (uids : List Uid) (limits : FetchLimits) :
    Handler Sizes := do
  let (messages, uidValidity) ← imap (fetch folder uids { size := true } (some limits.expected))
  let sizes : Sizes := messages.map fun m => (m.uid, m.size)
  if uidValidity.isNone then
    throw (invalidInput
      "server omitted UIDVALIDITY; export_messages requires it to guard the mailbox")
  else if limits.budget < (uids.filterMap (Export.eligibleSize sizes limits.perMsgCap)).sum then
    throw (invalidInput "export exceeds max_total_bytes")
  else pure sizes

/-- The loop of `fetch_bodies`; `running` are the bytes so far. -/
def fetchBodies (folder : String) (sizes : Sizes) (limits : FetchLimits) :
    List Uid → (running : Nat) → Handler (List FetchOutcome)
  | [], _ => pure []
  | uid :: rest, running =>
      match Export.classifyUid (Export.preflightSize sizes uid) limits.perMsgCap with
      | .skip reason => do
          let outcomes ← fetchBodies folder sizes limits rest running
          pure (⟨uid, .error reason⟩ :: outcomes)
      | .fetch => do
          let bodyLimit := min limits.perMsgCap (limits.budget - running)
          let body : Bytes ← imap (.fetchBody folder uid (some limits.expected) bodyLimit)
          if limits.budget < running + body.length then
            throw (invalidInput "export exceeds max_total_bytes")
          else do
            let outcomes ← fetchBodies folder sizes limits rest (running + body.length)
            pure (⟨uid, .ok body⟩ :: outcomes)

def exportReport (plan : RunPlan String) (complete : Bool) (mbox : Bytes)
    (succeeded : List Export.ExportedUid) (failed : List Export.FailedUid)
    (written : Option String) : ExportMessagesMeta where
  folder := plan.folder
  complete := complete
  path := if complete then written else none
  partialPath := if complete then none else written
  sha256 := ""                                           -- left out
  messageCount := succeeded.length
  totalBytes := mbox.length
  uidValidity := plan.expected
  succeeded := succeeded
  failed := failed

def writeExport (plan : RunPlan String) (complete : Bool) (bodies : List Bytes)
    (succeeded : List Export.ExportedUid) (failed : List Export.FailedUid) :
    Handler ExportMessagesMeta :=
  let mbox := Mbox.buildMbox bodies
  if plan.budget < mbox.length then
    throw (invalidInput "framed mbox exceeds max_total_bytes")
  else if succeeded.isEmpty then
    pure (exportReport plan complete mbox succeeded failed none)
  else do
    let suffix := if complete then "mbox" else "partial.mbox"
    let token : String ← await .exportToken
    let filename := plan.filenamePrefix ++ "-" ++ token ++ "." ++ suffix
    let written : String ← await (.writeAttachment plan.dest filename mbox)
    pure (exportReport plan complete mbox succeeded failed (some written))

def runExport (plan : RunPlan String) : Handler ExportMessagesMeta := do
  let limits : FetchLimits := ⟨plan.expected, plan.perMsgCap, plan.budget⟩
  let sizes ← preflightSizes plan.folder plan.uids limits
  let ruledOut := Export.preflightFailed sizes plan.perMsgCap plan.uids
  if !plan.allowPartial && !ruledOut.isEmpty then
    throw (Export.incompleteExportError ruledOut)
  else do
    let outcomes ← fetchBodies plan.folder sizes limits plan.uids 0
    match Export.planOutcome outcomes plan.allowPartial with
    | .abort failed => throw (Export.incompleteExportError (failed.map Export.FailedUid.uid))
    | .proceed complete bodies succeeded failed =>
        writeExport plan complete bodies succeeded failed

def handleExportMessages (input : ExportMessagesInput) : Handler ExportMessagesMeta := do
  check (validateFolderInput "folder" input.folder)
  let filenamePrefix ← check (Export.sanitizeFilenamePrefix input.filename)
  let uids ← check (Export.validateUids input.uids)
  let dest : String ← await (.resolveDestDir input.destDir)
  runExport {
    folder := input.folder
    dest := dest
    filenamePrefix := filenamePrefix
    uids := uids
    expected := input.expectedUidvalidity.val
    budget := Export.clampTotalBytes input.maxTotalBytes
    perMsgCap := account.maxFetchBodyBytes
    allowPartial := input.allowPartial.getD false }

/-! ## The table of handlers -/

/-- `list_folders::handle`, with the names as the server sends them. -/
def handleListFolders : Handler (List (Item × Option Reply)) :=
  imap (.listFoldersWithStatus "*")

/-- `parse_args`; the text of a refusal is serde's own. -/
def parseArgs {ι : Type} (decode : JsonMap → Option ι) (args : JsonMap) : Handler ι :=
  match decode args with
  | some input => pure input
  | none => throw (invalidInput "invalid arguments")

/-- An arm of `dispatch_tool`; the answer is serialized by the caller. -/
def arm {ι α : Type} (decode : JsonMap → Option ι) (handle : ι → Handler α) (args : JsonMap) :
    Handler Unit := do
  let input ← parseArgs decode args
  let _ ← handle input
  pure ()

def dispatchTool (tool : ToolName) (args : JsonMap) : Handler Unit :=
  match tool with
  | .listFolders => do
      let _ ← handleListFolders
      pure ()
  | .markRead => arm FlagInput.decode handleMarkRead args
  | .markUnread => arm FlagInput.decode handleMarkUnread args
  | .flag => arm FlagInput.decode handleFlag args
  | .unflag => arm FlagInput.decode handleUnflag args
  | .moveMessage => arm MoveMessageInput.decode handleMoveMessage args
  | .search | .searchAdvanced => arm SearchInput.decode (handleSearch account) args
  | .fetchMessage | .fetchMessageHtml =>
      arm FetchMessageInput.decode (handleFetchMessage account) args
  | .listAttachments => arm ListAttachmentsInput.decode handleListAttachments args
  | .downloadAttachment =>
      arm DownloadAttachmentInput.decode (handleDownloadAttachment account) args
  | .exportMessages => arm ExportMessagesInput.decode (handleExportMessages account) args
  | .createDraft | .createDraftHtml => arm ComposeInput.decode (handleCreateDraft account) args
  | .sendEmail => arm ComposeInput.decode (handleSendEmail account) args
  | .forward => arm Compose.ForwardInput.decode (handleForward account) args
  | .deleteMessage => arm DeleteMessageInput.decode (handleDeleteMessage account) args
  | .expunge => arm ExpungeInput.decode (handleExpunge account) args
  | .createFolder => arm CreateFolderInput.decode (handleCreateFolder account) args
  | .renameFolder => arm RenameFolderInput.decode (handleRenameFolder account) args
  | .deleteFolder => arm DeleteFolderInput.decode (handleDeleteFolder account) args
  | .addLabel => arm LabelInput.decode handleAddLabel args
  | .removeLabel => arm LabelInput.decode handleRemoveLabel args
  | .listLabels => arm ListLabelsInput.decode handleListLabels args
  | .useAccount | .listAccounts =>
      throw (.internal "infrastructure tools must not reach dispatch_tool")

end

end RustyImap.ToolHandlers
