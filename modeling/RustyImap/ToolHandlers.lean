import RustyImap.CallTrees
import RustyImap.FlagLists
import RustyImap.PartNumbering
import RustyImap.ProtectedFolders
import RustyImap.SearchOps
import RustyImap.SearchPages
import RustyImap.SessionDispatch
import RustyImap.SubCapability
import RustyImap.ToolInputs

/-!
# The tool handlers as programs over calls

Every handler that `ImapMcpServer::dispatch_tool` (`rimap-server/src/mcp/dispatch.rs`)
routes to, from `rimap-server/src/tools/`: a program that calls the connection of its
account, the SMTP client and the sandbox, and ends with the metadata of its answer.

What a call brings is for the environment to say, errors included; the connection's
errors arrive as they are reported.  The texts made for the reader of an answer (folder
display names, envelope fields, security warnings, hashes) are left out.
-/

namespace RustyImap.ToolHandlers

open RustyImap.CallTrees RustyImap.ImapOps
open RustyImap.Compose (ComposeLibs MimePart BuiltMessage AttachmentSummary invalidInput
  validateFolderInput)
open RustyImap.ContentParse (Bytes SelectedHeader parseMessageWithHeaders)
open RustyImap.Export (ExportMessagesInput ExportMessagesMeta)
open RustyImap.LenientInt (UidSelector)
open RustyImap.PartNumbering (BodyStructure)
open RustyImap.ProtectedFolders (NameLibs FolderGuard SpecialUseMap liftGuard)
open RustyImap.SessionDispatch (Operation)

/-! ## Calls and their answers -/

structure SendEnvelope where
  sender : String                    -- `from`
  recipients : List String
deriving DecidableEq, Repr

/-- What the handlers read of a `FetchedMessage`. -/
structure FetchedMessage where
  uid : Uid
  flags : Option (List Flag)
  size : Option Nat
  bodystructure : Option BodyStructure

/-- What a method of the connection returns, to the extent that a handler reads it. -/
def Value : Operation → Type
  | .listFolders _ => List Item
  | .listFoldersWithStatus _ => List (Item × Option Reply)
  | .status _ => Option Nat                               -- `messages`
  | .select _ _ => Reply
  | .search _ _ | .threadRelated _ _ => List Uid × Option Nat
  | .fetch _ _ _ _ => List FetchedMessage × Option Nat
  | .fetchBody _ _ _ _ => Bytes
  | .storeFlags _ _ _ _ _ => List Uid × Option Nat
  | .moveMessages _ _ _ _ => MoveOutcome
  | .appendMessage _ _ _ _ _ => Option Uid
  | .deleteMessage _ _ _ _ => DeleteResult × Option Nat
  | .expunge _ => List Uid × Nat
  | .createFolder _ | .renameFolder _ _ | .deleteFolder _ => Unit

inductive ToolOp where
  | imap (op : Operation)
  | smtpSend (envelope : SendEnvelope) (message : Bytes)          -- `send_raw`
  | readSandboxedFile (path : String) (cap : Nat)
  | resolveDestDir (destDir : Option String)
  | writeAttachment (dest filename : String) (data : Bytes)
  | exportToken

def ToolOp.Returns : ToolOp → Type
  | .imap op => Value op
  | .smtpSend _ _ => String
  | .readSandboxedFile _ _ => Bytes
  | .resolveDestDir _ | .writeAttachment _ _ _ | .exportToken => String

def Answer (op : ToolOp) : Type := Except RimapError op.Returns

abbrev Handler := ExceptT RimapError (Tree Answer)

/-- `.await?`. -/
def await (op : ToolOp) : Handler op.Returns := ExceptT.mk (Tree.ask op)

/-- `.await`, with the error as a value. -/
def attempt (op : ToolOp) : Handler (Except RimapError op.Returns) :=
  ExceptT.mk (Except.ok <$> Tree.ask op)

def imap (op : Operation) : Handler (Value op) := await (.imap op)

def check {α : Type} (r : Except RimapError α) : Handler α := ExceptT.mk (pure r)

/-- What a handler reads of `AccountState`, with the libraries it calls. -/
structure Account where
  libs : ComposeLibs
  names : NameLibs
  timeParse : String → Except String SearchOps.Date
  /-- `mail_parser`, as far as the walk over the parts reads it. -/
  messageParts : Bytes → Except PartNumbering.ContentError (List PartNumbering.MessagePart)
  username : String
  specialUse : SpecialUseMap
  folderGuard : FolderGuard
  smtp : Bool                        -- is it configured?
  maxFetchBodyBytes : Nat
  maxAppendBytes : Nat

/-- `Uid::uids_from_selector`. -/
def uidsFromSelector : UidSelector → List Uid
  | .single uid => [uid.val]
  | .batch uids => uids.val.map Subtype.val

structure FetchSpec where
  envelope : Bool := false
  bodystructure : Bool := false
  flags : Bool := false
  size : Bool := false
deriving DecidableEq, Repr

def buildFetchItems (spec : FetchSpec) : String :=
  "(" ++ " ".intercalate (["UID"] ++ (if spec.envelope then ["ENVELOPE"] else []) ++
    (if spec.bodystructure then ["BODYSTRUCTURE"] else []) ++
    (if spec.flags then ["FLAGS"] else []) ++
    (if spec.size then ["RFC822.SIZE"] else [])) ++ ")"

/-- `Connection::fetch`. -/
def fetch (folder : String) (uids : List Uid) (spec : FetchSpec) (expected : Option Nat) :
    Operation :=
  .fetch folder uids (buildFetchItems spec) expected

section

variable (account : Account)

/-- `Connection::fetch_body`. -/
def fetchBody (folder : String) (uid : Uid) (expected : Option Nat) : Operation :=
  .fetchBody folder uid expected account.maxFetchBodyBytes

/-- `Connection::append_message`. -/
def appendMessage (folder : String) (message : Bytes) (flags : List Flag)
    (keywords : List String) : Operation :=
  .appendMessage folder message flags keywords account.maxAppendBytes

end

/-- `fetch_single_by_uid`. -/
def fetchSingleByUid (folder : String) (uid : Uid) (spec : FetchSpec) (expected : Option Nat) :
    Handler (FetchedMessage × Option Nat) := do
  let (messages, uidValidity) ← imap (fetch folder [uid] spec expected)
  match messages with
  | msg :: _ => pure (msg, uidValidity)
  | [] =>
      throw (.authz .notFound
        ("message UID " ++ toString uid ++ " not found in folder '" ++ folder ++ "'"))

/-! ## Mailbox tools -/

structure FlagsMeta where
  folder : String
  uidsUpdated : List Uid
  uidValidity : Option Nat

def handleFlagOp (input : FlagInput) (flags : List Flag) (action : FlagAction) :
    Handler FlagsMeta := do
  check (validateFolderInput "folder" input.folder)
  let uids := uidsFromSelector input.target
  let (updated, uidValidity) ←
    imap (.storeFlags input.folder uids flags action input.expectedUidvalidity)
  pure ⟨input.folder, updated, uidValidity⟩

def handleMarkRead (input : FlagInput) : Handler FlagsMeta := handleFlagOp input [.seen] .add

def handleMarkUnread (input : FlagInput) : Handler FlagsMeta := handleFlagOp input [.seen] .remove

def handleFlag (input : FlagInput) : Handler FlagsMeta := handleFlagOp input [.flagged] .add

def handleUnflag (input : FlagInput) : Handler FlagsMeta := handleFlagOp input [.flagged] .remove

structure LabelsMeta where
  folder : String
  label : String
  uidsUpdated : List Uid
  uidValidity : Option Nat

def checkLabel (label : String) : Except RimapError Unit :=
  match FlagLists.validateLabel label with
  | .ok () => .ok ()
  | .error message => .error (invalidInput message)

def handleLabelOp (input : LabelInput) (action : FlagAction) : Handler LabelsMeta := do
  check (validateFolderInput "folder" input.folder)
  check (checkLabel input.label)
  let uids := uidsFromSelector input.target
  let (updated, uidValidity) ←
    imap (.storeFlags input.folder uids [.keyword input.label] action input.expectedUidvalidity)
  pure ⟨input.folder, input.label, updated, uidValidity⟩

def handleAddLabel (input : LabelInput) : Handler LabelsMeta := handleLabelOp input .add

def handleRemoveLabel (input : LabelInput) : Handler LabelsMeta := handleLabelOp input .remove

structure ListLabelsMeta where
  folder : String
  uid : Nat
  labels : List String
  uidValidity : Option Nat

def keywordOf : Flag → Option String
  | .keyword name => some name
  | .seen | .answered | .flagged | .deleted | .draft | .recent => none

def handleListLabels (input : ListLabelsInput) : Handler ListLabelsMeta := do
  check (validateFolderInput "folder" input.folder)
  let (msg, uidValidity) ←
    fetchSingleByUid input.folder input.uid.val { flags := true } input.expectedUidvalidity
  pure ⟨input.folder, input.uid.val, (msg.flags.getD []).filterMap keywordOf, uidValidity⟩

/-- The two warnings of `fallback_security_warnings`. -/
inductive FallbackWarning where
  | serverNonAtomicMoveFallback
  | serverFolderWideExpungeDataLoss
deriving DecidableEq, Repr

def fallbackSecurityWarnings (usedFallback folderWideExpunge : Bool) : List FallbackWarning :=
  (if usedFallback then [.serverNonAtomicMoveFallback] else []) ++
    (if folderWideExpunge then [.serverFolderWideExpungeDataLoss] else [])

structure MoveMessageMeta where
  folder : String
  destination : String
  moves : List (Uid × Option Uid)
  sourceUidValidity : Option Nat
  destinationUidValidity : Option Nat
  warnings : List FallbackWarning

def handleMoveMessage (input : MoveMessageInput) : Handler MoveMessageMeta := do
  check (validateFolderInput "folder" input.folder)
  check (validateFolderInput "destination" input.destination)
  let uids := uidsFromSelector input.target
  let outcome ← imap
    (.moveMessages input.folder input.destination uids input.expectedSourceUidvalidity)
  pure {
    folder := input.folder
    destination := input.destination
    moves := outcome.results.map fun r => (r.oldUid, r.newUid)
    sourceUidValidity := outcome.sourceUidValidity
    destinationUidValidity := outcome.destinationUidValidity
    warnings := fallbackSecurityWarnings outcome.usedFallback outcome.folderWideExpunge }

structure DeleteMessageMeta where
  folder : String
  uid : Nat
  movedToTrash : Bool
  destination : String
  uidValidity : Option Nat
  warnings : List FallbackWarning

section

variable (account : Account)

def trashFolder : String := (account.specialUse.slot .trash).getD "Trash"

def handleDeleteMessage (input : DeleteMessageInput) : Handler DeleteMessageMeta := do
  check (validateFolderInput "folder" input.folder)
  check (validateFolderInput "trash folder" (trashFolder account))
  let (result, uidValidity) ← imap
    (.deleteMessage input.folder input.uid.val (trashFolder account) input.expectedUidvalidity)
  pure {
    folder := input.folder
    uid := input.uid.val
    movedToTrash := result.movedToTrash
    destination := trashFolder account
    uidValidity := uidValidity
    warnings := fallbackSecurityWarnings result.usedFallback result.folderWideExpunge }

structure ExpungeMeta where
  folder : String
  expungedCount : Nat
  deletedUidsBeforeExpunge : List Uid

def handleExpunge (input : ExpungeInput) : Handler ExpungeMeta := do
  check (validateFolderInput "folder" input.folder)
  check (liftGuard (account.folderGuard.checkExpunge account.names input.folder))
  let (deletedUids, expungedCount) ← imap (.expunge input.folder)
  pure ⟨input.folder, expungedCount, deletedUids⟩

def handleCreateFolder (input : CreateFolderInput) : Handler String := do
  check (validateFolderInput "folder" input.folder)
  check (liftGuard (account.folderGuard.checkProtected account.names input.folder "create"))
  let _ ← imap (.createFolder input.folder)
  pure input.folder

def handleRenameFolder (input : RenameFolderInput) : Handler (String × String) := do
  check (validateFolderInput "folder" input.folder)
  check (validateFolderInput "new_folder" input.newFolder)
  check (liftGuard (account.folderGuard.checkRename account.names input.folder input.newFolder))
  let _ ← imap (.renameFolder input.folder input.newFolder)
  pure (input.folder, input.newFolder)

structure DeleteFolderMeta where
  folder : String
  messageCount : Nat

def handleDeleteFolder (input : DeleteFolderInput) : Handler DeleteFolderMeta := do
  check (validateFolderInput "folder" input.folder)
  check (liftGuard (account.folderGuard.checkProtected account.names input.folder "delete"))
  check (liftGuard (account.folderGuard.checkExpunge account.names input.folder))
  let messages : Option Nat ← imap (.status input.folder)
  let _ ← imap (.deleteFolder input.folder)
  pure ⟨input.folder, messages.getD 0⟩

/-! ## Compose tools -/

/-- `apply_threading_headers`, once the message that is replied to is fetched. -/
def threadedBuilder (input : ComposeInput) (includeBcc : Bool) :
    Handler Compose.MessageBuilder := do
  let builder := Compose.buildMessageHeaders account.libs account.username input includeBcc
  match input.inReplyToUid with
  | none => pure builder
  | some replyUid => do
      let raw : Bytes ← imap
        (fetchBody account (input.inReplyToFolder.getD "INBOX") replyUid.val none)
      check (Compose.applyThreadingHeaders { account.libs with fetchBody := fun _ _ => .ok raw }
        builder replyUid input.inReplyToFolder)

/-- The loop of `read_attachments`; `total` are the bytes so far. -/
def readEach : (total : Nat) → List AttachmentInput → Handler (List MimePart)
  | _, [] => pure []
  | total, att :: rest => do
      let cap := min (Compose.MAX_TOTAL_MESSAGE_BYTES - total) Compose.MAX_ATTACHMENT_BYTES
      let bytes : Bytes ← await (.readSandboxedFile att.path cap)
      let reads ← readEach (total + bytes.length) rest
      pure (⟨Compose.attachmentContentType account.libs att bytes, Compose.attachmentFilename att,
        bytes⟩ :: reads)

def readAttachments (input : ComposeInput) : Handler (List MimePart) :=
  match input.attachments with
  | none => pure []
  | some inputs =>
      readEach account
        (utf8Len input.bodyText + ((Compose.presentHtml input).map utf8Len).getD 0) inputs

def buildMessage (input : ComposeInput) (includeBcc : Bool) : Handler BuiltMessage := do
  let builder ← threadedBuilder account input includeBcc
  let reads ← readAttachments account input
  check (Compose.assembleMessage account.libs builder input reads)

structure CreateDraftMeta where
  folder : String
  uid : Option Uid
  messageId : Option String
  attachments : List AttachmentSummary

def draftsFolder : String := (account.specialUse.slot .drafts).getD "Drafts"

def handleCreateDraft (input : ComposeInput) : Handler CreateDraftMeta := do
  check (Compose.validateComposeInput input)
  let built ← buildMessage account input true
  check (validateFolderInput "drafts folder" (draftsFolder account))
  let uid ← imap
    (appendMessage account (draftsFolder account) built.raw [.draft] ["$PendingReview"])
  pure ⟨draftsFolder account, uid,
    Compose.extractMessageId account.libs.toContentLibs built.raw, built.attachments⟩

structure SentCopyInfo where
  folder : String
  uid : Option Uid
  failed : Bool
  failureCode : Option ErrorCode
deriving DecidableEq, Repr

def buildSentCopyInfo (sentFolder : String) : Option (Except ErrorCode (Option Uid)) → SentCopyInfo
  | some (.ok uid) => ⟨sentFolder, uid, false, none⟩
  | some (.error code) => ⟨sentFolder, none, true, some code⟩
  | none => ⟨sentFolder, none, true, some .invalidInput⟩

def sentFolder : String := (account.specialUse.slot .sent).getD "Sent"

/-- The best-effort APPEND of what was sent, in both handlers. -/
def appendSentCopy (raw : Bytes) : Handler SentCopyInfo :=
  if FolderName.isValid (sentFolder account) then do
    let answer ← attempt (.imap (appendMessage account (sentFolder account) raw [.seen] []))
    let outcome : Except ErrorCode (Option Uid) :=
      match answer with
      | .ok uid => .ok uid
      | .error e => .error e.code
    pure (buildSentCopyInfo (sentFolder account) (some outcome))
  else pure (buildSentCopyInfo (sentFolder account) none)

def buildEnvelope (sender : String) (recipients : List AddressInput)
    (cc bcc : Option (List AddressInput)) : SendEnvelope :=
  ⟨sender, (recipients ++ cc.getD [] ++ bcc.getD []).map AddressInput.address⟩

structure SendEmailMeta where
  messageId : Option String
  sentCopy : SentCopyInfo
  attachments : List AttachmentSummary

def handleSendEmail (input : ComposeInput) : Handler SendEmailMeta := do
  check (Compose.validateComposeInput input)
  if account.smtp then do
    let built ← buildMessage account input false
    let envelope := buildEnvelope account.username input.recipients input.cc input.bcc
    let _ ← await (.smtpSend envelope built.raw)
    let sentCopy ← appendSentCopy account built.raw
    pure ⟨Compose.extractMessageId account.libs.toContentLibs built.raw, sentCopy,
      built.attachments⟩
  else throw (.config "send_email requires SMTP configuration")

structure ForwardMeta where
  messageId : Option String
  sourceFolder : String
  sourceUid : Nat
  sentCopy : SentCopyInfo

def handleForward (input : Compose.ForwardInput) : Handler ForwardMeta := do
  let commentBody ← check (Compose.validateForwardInput input)
  if account.smtp then do
    let original : Bytes ← imap (fetchBody account input.folder input.uid.val none)
    check (Compose.checkOriginalSize original)
    let content := account.libs.toContentLibs
    let raw ← check (Compose.buildForwardMessage account.libs account.username input.recipients
      input.cc (Compose.forwardedSubject (Compose.extractSubject content original)) commentBody
      original (Compose.extractThreadingHeaders content original))
    let envelope := buildEnvelope account.username input.recipients input.cc input.bcc
    let _ ← await (.smtpSend envelope raw)
    let sentCopy ← appendSentCopy account raw
    pure ⟨Compose.extractMessageId content raw, input.folder, input.uid.val, sentCopy⟩
  else throw (.config "forward requires SMTP configuration")

end

end RustyImap.ToolHandlers
