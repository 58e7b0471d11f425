import RustyImap.ContentParse
import RustyImap.Errors
import RustyImap.FolderName
import RustyImap.ToolArguments

/-!
# Building an outgoing message

`tools/compose/message_builder.rs`: the checks of a compose input and the message
that `create_draft` appends.  mail-builder is a parameter, so a message is the
builder that is handed to `write_to_vec`; so are the sandbox, the mailbox that is
replied to and the magic-byte sniffer.
-/

namespace RustyImap.Compose

open RustyImap.UnicodeFilter RustyImap.HtmlBody RustyImap.ContentParse

def MAX_RECIPIENTS : Nat := 100
def MAX_SUBJECT_LEN : Nat := 1000
def MAX_BODY_BYTES : Nat := 1048576
def MAX_REFERENCES : Nat := 50
def MAX_ATTACHMENTS : Nat := 20
def MAX_ATTACHMENT_BYTES : Nat := 10 * 1048576
def MAX_TOTAL_MESSAGE_BYTES : Nat := 25 * 1048576

/-- `RimapError::invalid_input`. -/
def invalidInput (message : String) : RimapError := .authz .invalidInput message

/-- `validate_folder_input`. -/
def validateFolderInput (label name : String) : Except RimapError Unit :=
  match FolderName.validate name with
  | .ok () => .ok ()
  | .error reason => .error (invalidInput (label ++ ": invalid folder name: " ++ reason))

/-! ## Checks -/

def validateHeaderText (field value : String) : Except RimapError Unit :=
  if value.toList.any fun c => c == '\r' || c == '\n' || c.toNat == 0 || c == '<' || c == '>' then
    .error (invalidInput (field ++ " contains forbidden characters"))
  else .ok ()

def validateAddresses (field : String) : List AddressInput → Except RimapError Unit
  | [] => .ok ()
  | addr :: rest => do
      validateHeaderText (field ++ " address") addr.address
      match addr.name with
      | some name => validateHeaderText (field ++ " name") name
      | none => pure ()
      validateAddresses field rest

/-- An RFC 2045 token character. -/
def isTokenChar (c : Char) : Bool :=
  (0x21 ≤ c.toNat && c.toNat ≤ 0x7E) && !"()<>@,;:\\\"/[]?=".toList.contains c

def validateContentType (value : String) : Except RimapError Unit :=
  match splitOnce value '/' with
  | some (ty, sub) =>
      if ty.isEmpty || sub.isEmpty || !ty.toList.all isTokenChar || !sub.toList.all isTokenChar then
        .error (invalidInput "attachment content_type is not a valid MIME type")
      else .ok ()
  | none => .error (invalidInput "attachment content_type is not a valid MIME type")

def validateAttachmentEntries : List AttachmentInput → Except RimapError Unit
  | [] => .ok ()
  | att :: rest => do
      if att.path.isEmpty then .error (invalidInput "attachment path must not be empty")
      match att.filename with
      | some name => validateHeaderText "attachment filename" name
      | none => pure ()
      match att.contentType with
      | some ct => validateContentType ct
      | none => pure ()
      validateAttachmentEntries rest

def validateAttachments (attachments : List AttachmentInput) : Except RimapError Unit :=
  if MAX_ATTACHMENTS < attachments.length then
    .error (invalidInput ("too many attachments (" ++ toString attachments.length ++ "); max is " ++
      toString MAX_ATTACHMENTS))
  else validateAttachmentEntries attachments

def totalRecipients (input : ComposeInput) : Nat :=
  input.recipients.length + (input.cc.map List.length).getD 0 + (input.bcc.map List.length).getD 0

def validateComposeInput (input : ComposeInput) : Except RimapError Unit := do
  if input.recipients.isEmpty then
    .error (invalidInput "at least one To recipient is required")
  if MAX_RECIPIENTS < totalRecipients input then
    .error (invalidInput ("too many recipients (" ++ toString (totalRecipients input) ++
      "); max is " ++ toString MAX_RECIPIENTS))
  if MAX_SUBJECT_LEN < utf8Len input.subject then
    .error (invalidInput ("subject too long (" ++ toString (utf8Len input.subject) ++
      " bytes); max is " ++ toString MAX_SUBJECT_LEN))
  if MAX_BODY_BYTES < utf8Len input.bodyText then
    .error (invalidInput ("body_text too large (" ++ toString (utf8Len input.bodyText) ++
      " bytes); max is " ++ toString MAX_BODY_BYTES))
  match input.bodyHtml with
  | some html =>
      if MAX_BODY_BYTES < utf8Len html then
        .error (invalidInput ("body_html too large (" ++ toString (utf8Len html) ++
          " bytes); max is " ++ toString MAX_BODY_BYTES))
  | none => pure ()
  match input.attachments with
  | some attachments => validateAttachments attachments
  | none => pure ()
  validateAddresses "To" input.recipients
  validateAddresses "CC" (input.cc.getD [])
  validateAddresses "BCC" (input.bcc.getD [])
  if input.subject.toList.any fun c => c == '\r' || c == '\n' || c.toNat == 0 then
    .error (invalidInput "subject contains forbidden characters")
  match input.inReplyToFolder with
  | some folder => validateFolderInput "in_reply_to_folder" folder
  | none => pure ()

/-! ## The builder -/

/-- An attachment of `mail_builder`; the name stands in both headers of the part. -/
structure MimePart where
  contentType : String
  name : String
  contents : Bytes
deriving DecidableEq, Repr

structure MessageBuilder where
  sender : String
  recipients : List AddressInput
  cc : Option (List AddressInput)
  bcc : Option (List AddressInput)
  subject : String
  textBody : String
  messageId : String
  htmlBody : Option String := none
  inReplyTo : Option String := none
  references : List String := []
  attachments : Option (List MimePart) := none
deriving DecidableEq, Repr

structure ThreadingHeaders where
  messageId : Option String := none
  references : List String := []

/-- What a message is built with. -/
structure ComposeLibs extends ContentLibs where
  generateMessageId : String → String
  /-- `account.imap.fetch_body`. -/
  fetchBody : String → NonZeroU32 → Except RimapError Bytes
  /-- `sandbox::read_sandboxed_file_async`, with the cap on the bytes read. -/
  readSandboxedFile : String → Nat → Except RimapError Bytes
  sniffMime : Bytes → Option String
  writeToVec : MessageBuilder → Except Unit Bytes

def nonempty {α : Type} (l : Option (List α)) : Option (List α) := l.filter fun v => !v.isEmpty

def buildMessageHeaders (libs : ComposeLibs) (fromAddr : String) (input : ComposeInput)
    (includeBcc : Bool) : MessageBuilder where
  sender := fromAddr
  recipients := input.recipients
  cc := nonempty input.cc
  bcc := if includeBcc then nonempty input.bcc else none
  subject := input.subject
  textBody := input.bodyText
  messageId := libs.generateMessageId fromAddr

def sanitizeMsgId (libs : ContentLibs) (id location : String) : String :=
  (sanitizeHeader libs
    (.ofList (id.toList.filter fun c =>
      c != '\r' && c != '\n' && c.toNat != 0 && c != '<' && c != '>')) location).1

def extractThreadingHeaders (libs : ContentLibs) (raw : Bytes) : ThreadingHeaders :=
  match libs.safeParse raw with
  | .ok (some parsed) =>
      { messageId := parsed.messageId.map fun id => sanitizeMsgId libs id "header:message_id"
        references :=
          match parsed.references with
          | .text t => [sanitizeMsgId libs t "header:references"]
          | .textList list => list.map fun r => sanitizeMsgId libs r "header:references"
          | .address _ | .dateTime | .contentType | .received | .empty => [] }
  | .ok none | .error () => {}

/-- The root of the chain and the latest of the rest. -/
def capReferences (refs : List String) : List String :=
  if refs.length ≤ MAX_REFERENCES then refs
  else
    match refs with
    | [] => []
    | root :: rest => root :: rest.drop (rest.length - (MAX_REFERENCES - 1))

def applyThreadingHeaders (libs : ComposeLibs) (builder : MessageBuilder) (replyUid : NonZeroU32)
    (inReplyToFolder : Option String) : Except RimapError MessageBuilder := do
  let raw ← libs.fetchBody (inReplyToFolder.getD "INBOX") replyUid
  let headers := extractThreadingHeaders libs.toContentLibs raw
  match headers.messageId with
  | none => return builder
  | some msgId =>
      return { builder with
        inReplyTo := some msgId
        references := capReferences (headers.references ++ [msgId]) }

/-! ## Attachments -/

/-- `Path::file_name`, then `"attachment"`. -/
def baseName (path : String) : String :=
  let components := (path.toList.splitOn '/').filter fun c => c != [] && c != ['.']
  match components.getLast? with
  | some last => if last == ['.', '.'] then "attachment" else .ofList last
  | none => "attachment"

def attachmentFilename (att : AttachmentInput) : String := baseName (att.filename.getD att.path)

def attachmentContentType (libs : ComposeLibs) (att : AttachmentInput) (bytes : Bytes) : String :=
  att.contentType.getD ((libs.sniffMime bytes).getD "application/octet-stream")

def readEach (libs : ComposeLibs) : (total : Nat) → List AttachmentInput →
    Except RimapError (List MimePart)
  | _, [] => .ok []
  | total, att :: rest => do
      let cap := min (MAX_TOTAL_MESSAGE_BYTES - total) MAX_ATTACHMENT_BYTES
      let bytes ← libs.readSandboxedFile att.path cap
      let reads ← readEach libs (total + bytes.length) rest
      return ⟨attachmentContentType libs att bytes, attachmentFilename att, bytes⟩ :: reads

/-- The HTML body that counts. -/
def presentHtml (input : ComposeInput) : Option String := input.bodyHtml.filter bodyHtmlIsPresent

def readAttachments (libs : ComposeLibs) (input : ComposeInput) :
    Except RimapError (List MimePart) :=
  match input.attachments with
  | none => .ok []
  | some inputs =>
      readEach libs (utf8Len input.bodyText + ((presentHtml input).map utf8Len).getD 0) inputs

/-! ## Assembly -/

structure AttachmentSummary where
  filename : String
  bytes : Nat

structure BuiltMessage where
  raw : Bytes
  securityWarnings : List SecurityWarning
  attachments : List AttachmentSummary

def ContentError.toString : ContentError → String
  | .limitExceeded kind limit =>
      "content limit exceeded: " ++ kind ++ " (limit=" ++ reprStr limit ++ ")"
  | .malformed reason => "malformed message: " ++ reason
  | .parserPanic => "third-party MIME parser panicked on input"

/-- The HTML alternative, sanitized, with the warnings about it. -/
def addHtml (libs : ComposeLibs) (builder : MessageBuilder) (input : ComposeInput) :
    Except RimapError (MessageBuilder × List SecurityWarning) :=
  match presentHtml input with
  | none => .ok (builder, [])
  | some html =>
      match sanitizeHtml libs.toHtmlLibs (utf8Bytes html) (some "utf-8") with
      | .error e => .error (invalidInput ("body_html: " ++ ContentError.toString e))
      | .ok sanitized =>
          .ok ({ builder with htmlBody := some sanitized.bodyHtml }, sanitized.warnings)

def addAttachments (builder : MessageBuilder) (reads : List MimePart) : MessageBuilder :=
  { builder with
    attachments := if reads.isEmpty then builder.attachments
      else some (builder.attachments.getD [] ++ reads) }

/-- The builder as `assemble_message` writes it. -/
def assembled (libs : ComposeLibs) (builder : MessageBuilder) (input : ComposeInput)
    (reads : List MimePart) : Except RimapError (MessageBuilder × List SecurityWarning) := do
  let (builder, warnings) ← addHtml libs builder input
  return (addAttachments builder reads, warnings)

def assembleMessage (libs : ComposeLibs) (builder : MessageBuilder) (input : ComposeInput)
    (reads : List MimePart) : Except RimapError BuiltMessage := do
  let (builder, warnings) ← assembled libs builder input reads
  match libs.writeToVec builder with
  | .error () => .error (.internalSourced "failed to build message")
  | .ok raw =>
      return { raw
               securityWarnings := warnings
               attachments := reads.map fun read => ⟨read.name, read.contents.length⟩ }

/-- The headers of a message, with those of the thread it replies in. -/
def threaded (libs : ComposeLibs) (fromAddr : String) (input : ComposeInput) (includeBcc : Bool) :
    Except RimapError MessageBuilder :=
  let builder := buildMessageHeaders libs fromAddr input includeBcc
  match input.inReplyToUid with
  | none => .ok builder
  | some replyUid => applyThreadingHeaders libs builder replyUid input.inReplyToFolder

def buildMessage (libs : ComposeLibs) (fromAddr : String) (input : ComposeInput)
    (includeBcc : Bool) : Except RimapError BuiltMessage := do
  let builder ← threaded libs fromAddr input includeBcc
  let reads ← readAttachments libs input
  assembleMessage libs builder input reads

/-- The builder that `build_message` writes, when it comes that far. -/
def outgoing (libs : ComposeLibs) (fromAddr : String) (input : ComposeInput) (includeBcc : Bool) :
    Except RimapError MessageBuilder := do
  let builder ← threaded libs fromAddr input includeBcc
  let reads ← readAttachments libs input
  let (builder, _) ← assembled libs builder input reads
  return builder

end RustyImap.Compose
