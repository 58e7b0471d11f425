import RustyImap.HtmlBody
import RustyImap.SeparatedItems

/-!
# Parsing a message into content

`parse_message_with_headers` of `rimap-content`: the header scrubber, the
extractors of `parse/` and the look-alike audit, from raw bytes to the returned
content and selected headers.  mail-parser is a parameter: a message is whatever
it makes of the scrubbed bytes.

Every string of the result is sanitized (`UnicodeFilter`), is a text of the
program, or is listed in `unfiltered`.  Dates are left out.
-/

namespace RustyImap.ContentParse

open RustyImap.ImapOps RustyImap.UnicodeFilter RustyImap.HtmlBody

/-! ## What mail-parser returns -/

structure Addr where
  name : Option String
  address : Option String
deriving DecidableEq, Repr

/-- A list or a group of addresses: its iterator and its `first`. -/
structure Address where
  addrs : List Addr
  first : Option Addr
deriving DecidableEq, Repr

inductive HeaderValue where
  | text (s : String)
  | textList (list : List String)
  | address (address : Address)
  | dateTime
  | contentType
  | received
  | empty
deriving DecidableEq, Repr

structure Header where
  name : String
  value : HeaderValue
  offsetStart : Nat
  offsetEnd : Nat
deriving DecidableEq, Repr

structure ContentType where
  ctype : String
  subtype : Option String
  charset : Option String      -- `attribute("charset")`
deriving DecidableEq, Repr

inductive PartType where
  | text (s : String)
  | html (s : String)
  | binary (bytes : List UInt8)
  | inlineBinary (bytes : List UInt8)
  | message
  | multipart (children : List Nat)
deriving DecidableEq, Repr

structure Part where
  body : PartType
  contentType : Option ContentType := none
  attachmentName : Option String := none
  contentId : Option String := none
  dispositionIsInline : Option Bool := none
  rawLen : Nat := 0
deriving DecidableEq, Repr

structure Message where
  sender : Option Address := none            -- `from()`
  recipients : Option Address := none        -- `to()`
  cc : Option Address := none
  replyTo : Option Address := none
  subject : Option String := none
  messageId : Option String := none
  inReplyTo : HeaderValue := .empty
  references : HeaderValue := .empty
  listId : HeaderValue := .empty
  listUnsubscribe : HeaderValue := .empty
  listPost : HeaderValue := .empty
  headers : List Header := []
  parts : List Part := []
  textBody : List Nat := []
  htmlBody : List Nat := []
  attachments : List Nat := []
deriving DecidableEq, Repr

/-- `unicode_script::Script`, as far as it is told apart. -/
inductive Script where
  | common
  | inherited
  | unknown
  | latin
  | han
  | hiragana
  | katakana
  | hangul
  | bopomofo
  | other (name : String)
deriving DecidableEq, Repr

/-- All crates that the pipeline calls, and the table behind Rust's `Debug` for
    characters. -/
structure ContentLibs extends HtmlLibs where
  /-- `safe_parse`; an error is a panic that was caught. -/
  safeParse : List UInt8 → Except Unit (Option Message)
  domainToUnicode : String → String
  script : Char → Script
  printable : Char → Bool
  /-- Control and format characters are escaped. -/
  not_printable : ∀ c, stripped c = true → printable c = false

abbrev Bytes := List UInt8

def utf8Bytes (s : String) : Bytes := s.toUTF8.data.toList

def MAX_MESSAGE_BYTES : Nat := 25 * 1024 * 1024
def MAX_BODY_BYTES : Nat := 1024 * 1024
def MAX_TOTAL_BODY_BYTES : Nat := 4 * 1024 * 1024
def MAX_HEADER_BYTES : Nat := 8 * 1024
def MAX_MIME_DEPTH : Nat := 8
def MAX_MIME_PARTS : Nat := 100
def MAX_HEADER_COUNT : Nat := 256

/-- A header string through the pipeline. -/
def sanitizeHeader (libs : ContentLibs) (raw location : String) :
    String × List SecurityWarning :=
  sanitize libs.toUnicodeLibs (utf8Bytes raw) (some "utf-8") MAX_HEADER_BYTES location

/-! ## The header scrubber -/

/-- The position of a window. -/
def findWindow (window : Bytes) : Bytes → Option Nat
  | [] => none
  | b :: rest =>
      if window.isPrefixOf (b :: rest) then some 0 else (findWindow window rest).map (· + 1)

def findHeaderEnd (raw : Bytes) : Option Nat :=
  match findWindow [13, 10, 13, 10] raw with
  | some pos => some (pos + 2)
  | none => (findWindow [10, 10] raw).map (· + 1)

/-- Logical lines, folded lines with the line they continue; `line` is the line so
    far. -/
def splitHeaderLines (line : Bytes) : Bytes → List Bytes
  | [] => if line.isEmpty then [] else [line]
  | b :: rest =>
      if b = 10 && !(rest.head? == some 32 || rest.head? == some 9) then
        (line ++ [b]) :: splitHeaderLines [] rest
      else splitHeaderLines (line ++ [b]) rest

/-- An encoded-word is open at the end of the header. -/
def dangling : Bool → Bytes → Bool
  | inside, [] => inside
  | inside, [_] => inside
  | false, b :: c :: rest =>
      if b = 61 && c = 63 then dangling true rest else dangling false (c :: rest)
  | true, b :: c :: rest =>
      if b = 63 && c = 61 then dangling false rest else dangling true (c :: rest)

/-- `detect_smuggling_spans`; the first `covered` headers are inside a span. -/
def detectSmugglingSpans : Nat → List Bytes → List Bool
  | _, [] => []
  | covered + 1, _ :: rest => true :: detectSmugglingSpans covered rest
  | 0, header :: rest =>
      if dangling false header then
        match rest.findIdx? fun line => (findWindow [63, 61] line).isSome with
        | some offset => true :: detectSmugglingSpans (offset + 1) rest
        | none => true :: detectSmugglingSpans 0 rest
      else false :: detectSmugglingSpans 0 rest

/-- The name of a dropped header, sanitized. -/
def droppedName (libs : ContentLibs) (line : Bytes) : Option String :=
  if line.contains 58 then
    match String.fromUTF8? ⟨(line.takeWhile (· != 58)).toArray⟩ with
    | some name =>
        let sanitized :=
          (sanitize libs.toUnicodeLibs (utf8Bytes name) (some "utf-8") 64 "headers").1
        if sanitized = "" then none else some sanitized
    | none => none
  else none

def scrubHeaderSmuggling (libs : ContentLibs) (raw : Bytes) : Bytes × List SecurityWarning :=
  match findHeaderEnd raw with
  | none => (raw, [])
  | some headerEnd =>
      let logical := splitHeaderLines [] (raw.take headerEnd)
      let marked := logical.zip (detectSmugglingSpans 0 logical)
      let dropped := (marked.filter (·.2)).map Prod.fst
      let kept := (marked.filter (!·.2)).map Prod.fst
      let names := (dropped.filterMap (droppedName libs)).take 8
      let count := "count=" ++ toString dropped.length
      (kept.flatten ++ raw.drop headerEnd,
        if dropped.isEmpty then []
        else
          [warningAt .parseHeaderSmugglingBlocked
            (if names.isEmpty then count else count ++ " names=[" ++ join "," names ++ "]")
            "headers"])

/-! ## Addresses and header values -/

/-- `contains_bidi_override`. -/
def containsBidiOverride (s : String) : Bool := s.toList.any BIDI_OVERRIDE.contains

/-- `rsplit_once('@')`, what follows. -/
def afterLastAt (email : String) : Option String :=
  if email.toList.contains '@' then
    some (.ofList (email.toList.rtakeWhile (· != '@')))
  else none

def trimStr (s : String) : String := .ofList (trim s.toList)

/-- `audit_addr_domain_bidi`: detection before the code points are gone. -/
def auditAddrDomainBidi (libs : ContentLibs) (addr : Addr) (location : String) :
    List SecurityWarning :=
  match addr.address.bind afterLastAt with
  | some domain =>
      if containsBidiOverride domain then
        let ascii := (libs.domainToAscii (trimStr domain)).getD "invalid"
        [warningAt .lookalikeHomographDomain
          ("domain=" ++ ascii ++ ",reason=bidi_pre_strip") location]
      else []
  | none => []

def formatAddr (addr : Addr) : String :=
  let email := addr.address.getD ""
  match addr.name with
  | some name => if name = "" then email else name ++ " <" ++ email ++ ">"
  | none => email

def addrDomain (addr : Addr) : Option String := do
  let domain ← addr.address.bind afterLastAt
  let trimmed := trimStr domain
  if trimmed = "" then none else some trimmed

/-- Results in order, with their warnings. -/
def collect {α β : Type} (f : α → β × List SecurityWarning) (l : List α) :
    List β × List SecurityWarning :=
  (l.map fun a => (f a).1, l.flatMap fun a => (f a).2)

def sanitizeAddr (libs : ContentLibs) (location : String) (addr : Addr) :
    String × List SecurityWarning :=
  let sanitized := sanitizeHeader libs (formatAddr addr) location
  (sanitized.1, auditAddrDomainBidi libs addr location ++ sanitized.2)

def addressStrings (libs : ContentLibs) (address : Option Address) (location : String) :
    List String × List SecurityWarning :=
  collect (sanitizeAddr libs location) ((address.map Address.addrs).getD [])

/-- An optional result with its warnings. -/
def optional {α β : Type} (f : α → β × List SecurityWarning) :
    Option α → Option β × List SecurityWarning
  | some a => (some (f a).1, (f a).2)
  | none => (none, [])

def firstAddressString (libs : ContentLibs) (address : Option Address) (location : String) :
    Option String × List SecurityWarning :=
  optional (sanitizeAddr libs location) (address.bind Address.first)

def sanitizeOptStr (libs : ContentLibs) (value : Option String) (location : String) :
    Option String × List SecurityWarning :=
  optional (fun s => sanitizeHeader libs s location) value

def headerValueFirstText (libs : ContentLibs) (value : HeaderValue) (location : String) :
    Option String × List SecurityWarning :=
  match value with
  | .text s => sanitizeOptStr libs (some s) location
  | .textList list => sanitizeOptStr libs list.head? location
  | .address _ | .dateTime | .contentType | .received | .empty => (none, [])

def headerValueAllText (libs : ContentLibs) (value : HeaderValue) (location : String) :
    List String × List SecurityWarning :=
  match value with
  | .text s => collect (fun s => sanitizeHeader libs s location) [s]
  | .textList list => collect (fun s => sanitizeHeader libs s location) list
  | .address _ | .dateTime | .contentType | .received | .empty => ([], [])

/-- The end of `sanitize_header_value`, after the audits of its addresses. -/
def sanitizeNonempty (libs : ContentLibs) (raw location : String)
    (audits : List SecurityWarning) : Option String × List SecurityWarning :=
  if raw = "" then (none, audits)
  else
    let sanitized := sanitizeHeader libs raw location
    (some sanitized.1, audits ++ sanitized.2)

def sanitizeHeaderValue (libs : ContentLibs) (value : HeaderValue) (location : String) :
    Option String × List SecurityWarning :=
  match value with
  | .text s => sanitizeNonempty libs s location []
  | .textList list => sanitizeNonempty libs (join ", " list) location []
  | .address address =>
      sanitizeNonempty libs (join ", " (address.addrs.map formatAddr)) location
        (address.addrs.flatMap fun addr => auditAddrDomainBidi libs addr location)
  | .dateTime | .contentType | .received | .empty => (none, [])

structure MailingListInfo where
  listId : Option String
  listUnsubscribe : Option String
  listPost : Option String

def extractMailingList (libs : ContentLibs) (message : Message) :
    Option MailingListInfo × List SecurityWarning :=
  let listId := sanitizeHeaderValue libs message.listId "header:list_id"
  let listUnsubscribe :=
    sanitizeHeaderValue libs message.listUnsubscribe "header:list_unsubscribe"
  let listPost := sanitizeHeaderValue libs message.listPost "header:list_post"
  (if listId.1.isNone && listUnsubscribe.1.isNone && listPost.1.isNone then none
    else some ⟨listId.1, listUnsubscribe.1, listPost.1⟩,
    listId.2 ++ listUnsubscribe.2 ++ listPost.2)

/-- `raw_header_slice`. -/
def rawHeaderSlice (libs : ContentLibs) (header : Header) (raw : Bytes) (location : String) :
    Option String × List SecurityWarning :=
  if header.offsetStart ≤ header.offsetEnd && header.offsetEnd ≤ raw.length then
    let slice := (raw.take header.offsetEnd).drop header.offsetStart
    let sanitized := sanitize libs.toUnicodeLibs slice (some "utf-8") MAX_HEADER_BYTES location
    let text := trimStr sanitized.1
    (if text = "" then none else some text, sanitized.2)
  else (none, [])

def coerceHeaderValue (libs : ContentLibs) (raw : Bytes) (location : String) (header : Header) :
    Option String × List SecurityWarning :=
  match header.value with
  | .text _ | .textList _ | .address _ => sanitizeHeaderValue libs header.value location
  | .dateTime | .contentType | .received => rawHeaderSlice libs header raw location
  | .empty => (none, [])

structure SelectedHeader where
  name : String
  values : List String

/-- The headers of a name, as they were asked for. -/
def selectHeader (libs : ContentLibs) (message : Message) (raw : Bytes) (name : String) :
    List SelectedHeader × List SecurityWarning :=
  let location := "header:" ++ String.ofList (name.toList.map toAsciiLower)
  let found := collect (coerceHeaderValue libs raw location)
    (message.headers.filter fun header => eqIgnoreAsciiCase header.name name)
  let values := found.1.filterMap id
  (if values.isEmpty then [] else [⟨name, values⟩], found.2)

def extractSelectedHeaders (libs : ContentLibs) (message : Message) (raw : Bytes)
    (wanted : List String) : List SelectedHeader × List SecurityWarning :=
  let selected := collect (selectHeader libs message raw) wanted
  (selected.1.flatten, selected.2)

/-! ## Attachments -/

/-- A character in Rust's `Debug` form of a string. -/
def escapeDebug (libs : ContentLibs) (c : Char) : List Char :=
  if c = '\x00' then ['\\', '0']
  else if c = '\t' then ['\\', 't']
  else if c = '\r' then ['\\', 'r']
  else if c = '\n' then ['\\', 'n']
  else if c = '"' then ['\\', '"']
  else if c = '\\' then ['\\', '\\']
  else if libs.printable c then [c]
  else ['\\', 'u', '\x7b'] ++ Nat.toDigits 16 c.toNat ++ ['\x7d']

/-- The format `{:?}`. -/
def debugStr (libs : ContentLibs) (s : String) : String :=
  .ofList ('"' :: s.toList.flatMap (escapeDebug libs) ++ ['"'])

def DOCUMENT_EXTENSIONS : List String :=
  ["pdf", "doc", "docx", "xls", "xlsx", "png", "jpg", "jpeg", "gif", "txt", "csv", "rtf"]

def RESERVED_WINDOWS_STEMS : List String :=
  ["con", "prn", "aux", "nul", "com0", "com1", "com2", "com3", "com4", "com5", "com6", "com7",
    "com8", "com9", "lpt0", "lpt1", "lpt2", "lpt3", "lpt4", "lpt5", "lpt6", "lpt7", "lpt8", "lpt9"]

def EXECUTABLE_EXTENSIONS : List String :=
  ["exe", "dll", "bat", "cmd", "ps1", "vbs", "js", "scr", "msi", "app", "dmg", "sh", "com", "pif",
    "jar", "lnk"]

def isAsciiWhitespace (c : Char) : Bool :=
  c == ' ' || c == '\t' || c == '\n' || c == '\r' || c == '\x0c'

/-- The characters that are trimmed off both ends of a file name. -/
def trimsOff (c : Char) : Bool := c == '.' || isAsciiWhitespace c

/-- Path segments, `..` made harmless, in one name. -/
def joinSegments (name : String) : String :=
  join "_" ((name.toList.splitOnP fun c => c == '/' || c == '\\').map fun segment =>
    if segment = ['.', '.'] then "_" else .ofList segment)

def trimName (name : List Char) : List Char :=
  ((name.filter (· != '\x00')).dropWhile trimsOff).rdropWhile trimsOff

def avoidReserved (trimmed : List Char) : List Char :=
  if RESERVED_WINDOWS_STEMS.contains (.ofList (upTo ['.'] (trimmed.map toAsciiLower))) then
    '_' :: trimmed
  else trimmed

def sanitizeFilename (libs : ContentLibs) (name : String) (idx : Nat) : String × Bool :=
  let capped := truncateGraphemes libs.toUnicodeLibs
    (avoidReserved (trimName (joinSegments name).toList)) 255
  let finalName := if capped.isEmpty then "attachment_" ++ toString idx else .ofList capped
  (finalName, finalName != name)

def detectDoubleExtension (name : String) : Option (String × String) :=
  match (name.toList.splitOnP (· == '.')).reverse with
  | finalExt :: penultimate :: _ :: _ =>
      let penultimate := String.ofList (penultimate.map toAsciiLower)
      let finalExt := String.ofList (finalExt.map toAsciiLower)
      if DOCUMENT_EXTENSIONS.contains penultimate && EXECUTABLE_EXTENSIONS.contains finalExt then
        some (penultimate, finalExt)
      else none
  | _ => none

def sanitizeAttachmentFilename (libs : ContentLibs) (idx : Nat) (name : String) :
    String × List SecurityWarning :=
  let location := "attachment[" ++ toString idx ++ "]:filename"
  let bidi :=
    if containsBidiOverride name then
      [warningAt .lookalikeFilenameExtensionSpoof
        ("raw=" ++ debugStr libs name ++ ",contains_bidi_override=true") location]
    else []
  let unicodeClean := sanitizeHeader libs name location
  let safe := sanitizeFilename libs unicodeClean.1 idx
  let rewritten :=
    if safe.2 then
      [warningAt .parseAttachmentFilenameRewritten
        ("original=" ++ debugStr libs unicodeClean.1) location]
    else []
  let double :=
    match detectDoubleExtension safe.1 with
    | some (penult, finalExt) =>
        [warningAt .lookalikeFilenameExtensionSpoof
          ("raw=" ++ debugStr libs name ++ ",reason=double_extension,visible=." ++ penult ++
            ",declared=." ++ penult ++ "." ++ finalExt) location]
    | none => []
  (safe.1, bidi ++ unicodeClean.2 ++ rewritten ++ double)

/-- Magic bytes and their content types. -/
def signatures : List (Bytes × String) :=
  [([0x89, 0x50, 0x4E, 0x47, 0x0D, 0x0A, 0x1A, 0x0A], "image/png"),
    ([0xFF, 0xD8, 0xFF], "image/jpeg"),
    ([0x47, 0x49, 0x46, 0x38, 0x37, 0x61], "image/gif"),
    ([0x47, 0x49, 0x46, 0x38, 0x39, 0x61], "image/gif"),
    ([0x25, 0x50, 0x44, 0x46], "application/pdf"),
    ([0x50, 0x4B, 0x03, 0x04], "application/zip"),
    ([0x4D, 0x5A], "application/x-msdownload"),
    ([0x7F, 0x45, 0x4C, 0x46], "application/x-elf"),
    ([0xCF, 0xFA, 0xED, 0xFE], "application/x-mach-binary"),
    ([0xFE, 0xED, 0xFA, 0xCE], "application/x-mach-binary"),
    ([0xFE, 0xED, 0xFA, 0xCF], "application/x-mach-binary"),
    ([0xCA, 0xFE, 0xBA, 0xBE], "application/x-mach-binary"),
    ([0x37, 0x7A, 0xBC, 0xAF, 0x27, 0x1C], "application/x-7z-compressed"),
    ([0x52, 0x61, 0x72, 0x21, 0x1A, 0x07, 0x00], "application/vnd.rar"),
    ([0x52, 0x61, 0x72, 0x21, 0x1A, 0x07, 0x01, 0x00], "application/vnd.rar"),
    ([0xD0, 0xCF, 0x11, 0xE0, 0xA1, 0xB1, 0x1A, 0xE1], "application/x-ole-storage")]

def sniffContentTypes (body : Bytes) : List String :=
  signatures.foldl (fun found (sig, label) =>
    if sig.isPrefixOf body && !found.contains label then found ++ [label] else found) []

def containsText (text : List Char) (needle : String) : Bool :=
  text.tails.any fun rest => startsWith rest needle

def contentTypesCompatible (declared sniffed : String) : Bool :=
  eqIgnoreAsciiCase declared sniffed ||
    (sniffed == "application/zip" &&
      let lowered := declared.toList.map toAsciiLower
      containsText lowered "openxmlformats" || containsText lowered "opendocument")

def contentTypeString (ct : ContentType) : String :=
  match ct.subtype with
  | some sub => ct.ctype ++ "/" ++ sub
  | none => ct.ctype

def partBytes (part : Part) : Bytes :=
  match part.body with
  | .text s | .html s => utf8Bytes s
  | .binary b | .inlineBinary b => b
  | .message | .multipart _ => []

def isInline (part : Part) : Bool :=
  match part.body with
  | .inlineBinary _ => true
  | .text _ | .html _ | .binary _ | .message | .multipart _ => part.dispositionIsInline.getD false

structure AttachmentMeta where
  filename : Option String
  contentType : String
  sizeBytes : Nat
  contentId : Option String
  isInline : Bool

def declaredContentType (part : Part) : String :=
  (part.contentType.map contentTypeString).getD "application/octet-stream"

/-- The two warnings about the magic bytes of an attachment. -/
def sniffWarnings (part : Part) (idx : Nat) : List SecurityWarning :=
  let declared := declaredContentType part
  let sniffed := sniffContentTypes (partBytes part)
  let detail := "declared=" ++ declared ++ " sniffed=" ++ join "," sniffed
  let location := "attachment[" ++ toString idx ++ "]"
  (if 1 < sniffed.length then [warningAt .parseAttachmentPolyglot detail location] else []) ++
    if !sniffed.isEmpty && !sniffed.any (contentTypesCompatible declared) then
      [warningAt .parseMimeTypeMismatch detail location]
    else []

def buildAttachmentMeta (libs : ContentLibs) (part : Part) (idx : Nat) :
    AttachmentMeta × List SecurityWarning :=
  let filename := optional (sanitizeAttachmentFilename libs idx) part.attachmentName
  let contentId := optional
    (fun id => sanitizeHeader libs id ("attachment[" ++ toString idx ++ "]:content_id"))
    part.contentId
  let contentType := sanitizeHeader libs (declaredContentType part)
    ("attachment[" ++ toString idx ++ "]:content_type")
  ({ filename := filename.1
     contentType := contentType.1
     sizeBytes := part.rawLen
     contentId := contentId.1
     isInline := isInline part },
    sniffWarnings part idx ++ filename.2 ++ contentId.2 ++ contentType.2)

/-- The attachments that have a part, with their places in the list. -/
def attachmentParts (message : Message) : List (Part × Nat) :=
  message.attachments.zipIdx.filterMap fun (partId, idx) =>
    message.parts[partId]?.map fun part => (part, idx)

def extractAttachments (libs : ContentLibs) (message : Message) :
    List AttachmentMeta × List SecurityWarning :=
  collect (fun entry => buildAttachmentMeta libs entry.1 entry.2) (attachmentParts message)

/-! ## Metadata -/

structure ContentMeta where
  sender : Option String            -- `from`
  recipients : List String          -- `to`
  cc : List String
  replyTo : Option String
  subject : Option String
  messageId : Option String
  inReplyTo : Option String
  references : List String
  mailingList : Option MailingListInfo
  attachments : List AttachmentMeta
  originalSizeBytes : Nat
  bodyTruncated : Bool

def extractMeta (libs : ContentLibs) (message : Message) (originalSizeBytes : Nat) :
    ContentMeta × List SecurityWarning :=
  let sender := firstAddressString libs message.sender "header:from"
  let recipients := addressStrings libs message.recipients "header:to"
  let cc := addressStrings libs message.cc "header:cc"
  let replyTo := firstAddressString libs message.replyTo "header:reply_to"
  let subject := sanitizeOptStr libs message.subject "header:subject"
  let messageId := sanitizeOptStr libs message.messageId "header:message_id"
  let inReplyTo := headerValueFirstText libs message.inReplyTo "header:in_reply_to"
  let references := headerValueAllText libs message.references "header:references"
  let mailingList := extractMailingList libs message
  let attachments := extractAttachments libs message
  ({ sender := sender.1
     recipients := recipients.1
     cc := cc.1
     replyTo := replyTo.1
     subject := subject.1
     messageId := messageId.1
     inReplyTo := inReplyTo.1
     references := references.1
     mailingList := mailingList.1
     attachments := attachments.1
     originalSizeBytes
     bodyTruncated := false },
    sender.2 ++ recipients.2 ++ cc.2 ++ replyTo.2 ++ subject.2 ++ messageId.2 ++ inReplyTo.2 ++
      references.2 ++ mailingList.2 ++ attachments.2)

/-! ## Bodies -/

structure BodyWalkState where
  primaryText : Option String := none
  alternates : List String := []
  bodyHtml : Option String := none
  anchorHrefs : List String := []
  bodyTruncated : Bool := false
  totalBytes : Nat := 0
  warnings : List SecurityWarning := []

def BodyWalkState.addText (state : BodyWalkState) (text : String)
    (warnings : List SecurityWarning) : BodyWalkState :=
  { state with
    totalBytes := state.totalBytes + utf8Len text
    primaryText := some (state.primaryText.getD text)
    alternates := if state.primaryText.isNone then state.alternates else state.alternates ++ [text]
    warnings := state.warnings ++ warnings }

def partCharset (part : Part) : Option String := part.contentType.bind ContentType.charset

def decodeTextPart (libs : ContentLibs) (part : Part) (rawBytes : Bytes) (idx : Nat)
    (state : BodyWalkState) : BodyWalkState :=
  let location := "body:text[" ++ toString idx ++ "]"
  let sanitized := sanitize libs.toUnicodeLibs rawBytes (partCharset part) MAX_BODY_BYTES location
  if MAX_BODY_BYTES < rawBytes.length then
    let truncated := warningAt .parseBodyTruncated
      ("original=" ++ toString rawBytes.length ++ " limit=" ++ toString MAX_BODY_BYTES) location
    { state with bodyTruncated := true }.addText sanitized.1 (truncated :: sanitized.2)
  else state.addText sanitized.1 sanitized.2

def sanitizeHtmlPart (libs : ContentLibs) (part : Part) (rawBytes : Bytes)
    (state : BodyWalkState) : Except ContentError BodyWalkState :=
  match sanitizeHtml libs.toHtmlLibs rawBytes (partCharset part) with
  | .ok result =>
      .ok { state.addText result.bodyText result.warnings with
        bodyHtml := some result.bodyHtml
        anchorHrefs := result.anchorHrefs }
  | .error (.limitExceeded kind limit) =>
      .ok { state with
        bodyTruncated := true
        warnings := state.warnings ++ [warningAt .parseBodyTruncated
          ("original=" ++ toString rawBytes.length ++ " limit=" ++ toString limit ++ " kind=" ++
            kind) "body:html"] }
  | .error err => .error err

/-- The loop over `text_body`. -/
def walkTextBody (libs : ContentLibs) (message : Message) (primaryHtml : Option Nat) :
    List (Nat × Nat) → BodyWalkState → Except ContentError BodyWalkState
  | [], state => .ok state
  | (partId, idx) :: rest, state =>
      match message.parts[partId]? with
      | none => walkTextBody libs message primaryHtml rest state
      | some part => do
          let visited ←
            match part.body with
            | .text s => .ok (some (decodeTextPart libs part (utf8Bytes s) idx state))
            | .html s =>
                if primaryHtml = some partId then
                  some <$> sanitizeHtmlPart libs part (utf8Bytes s) state
                else .ok none
            | .message | .binary _ | .inlineBinary _ | .multipart _ => .ok none
          match visited with
          | none => walkTextBody libs message primaryHtml rest state
          | some state =>
              if MAX_TOTAL_BODY_BYTES ≤ state.totalBytes then
                .ok { state with
                  bodyTruncated := true
                  warnings := state.warnings ++ [warningAt .parseBodyTruncated
                    ("total=" ++ toString state.totalBytes ++ " limit=" ++
                      toString MAX_TOTAL_BODY_BYTES) "body:aggregate"] }
              else walkTextBody libs message primaryHtml rest state

def surfaceAlternativeHtml (libs : ContentLibs) (message : Message) (primaryHtml : Option Nat)
    (state : BodyWalkState) : Except ContentError BodyWalkState :=
  if state.bodyHtml.isSome || state.bodyTruncated ||
      decide (MAX_TOTAL_BODY_BYTES ≤ state.totalBytes) then .ok state
  else
    match primaryHtml.bind fun partId => message.parts[partId]? with
    | some part =>
        match part.body with
        | .html s => sanitizeHtmlPart libs part (utf8Bytes s) state
        | _ => .ok state
    | none => .ok state

/-- `depth_recursive` at level `MAX_MIME_DEPTH + 1 - left`. -/
def depthRecursive (parts : List Part) : (left : Nat) → Nat → Nat
  | 0, _ => MAX_MIME_DEPTH + 1
  | left + 1, partId =>
      let current := MAX_MIME_DEPTH - left
      match parts[partId]? with
      | none => current
      | some part =>
          match part.body with
          | .multipart children =>
              ((children.map fun child => depthRecursive parts left child).max?).getD current
          | .message => current + 1
          | .text _ | .html _ | .binary _ | .inlineBinary _ => current

/-- `extract_bodies`; the warnings of a refusal are lost with it. -/
def extractBodies (libs : ContentLibs) (message : Message) : Except ContentError BodyWalkState :=
  if MAX_MIME_PARTS < message.parts.length then
    .error (.limitExceeded "mime_parts" MAX_MIME_PARTS)
  else if MAX_MIME_DEPTH < depthRecursive message.parts MAX_MIME_DEPTH 0 then
    .error (.limitExceeded "mime_depth" MAX_MIME_DEPTH)
  else do
    let primaryHtml := message.htmlBody.head?
    let state ← walkTextBody libs message primaryHtml message.textBody.zipIdx {}
    surfaceAlternativeHtml libs message primaryHtml state

/-! ## Look-alike domains -/

def labelMixesScripts (libs : ContentLibs) (label : List Char) : Bool :=
  let letters := label.filter fun c => !(c.isDigit || c == '-' || c == '_')
  let scripts := ((letters.map libs.script).filter fun s =>
    s != .common && s != .inherited && s != .unknown).dedup
  if scripts.length ≤ 1 then false
  else !(scripts.contains .latin && scripts.length == 2 &&
    scripts.any [Script.han, .hiragana, .katakana, .hangul, .bopomofo].contains)

structure DomainClassification where
  ascii : String
  unicode : String
  wasPunycode : Bool
  mixedScript : Bool

def classifyDomain (libs : ContentLibs) (raw : String) : Option DomainClassification := do
  let trimmed := trimStr raw
  if trimmed = "" || !trimmed.toList.contains '.' then none
  else
    let ascii ← libs.domainToAscii trimmed
    let unicode := libs.domainToUnicode ascii
    some
      { ascii
        unicode
        wasPunycode := (ascii.toList.splitOnP (· == '.')).any fun label => startsWith label "xn--"
        mixedScript := (unicode.toList.splitOnP (· == '.')).any (labelMixesScripts libs) }

def emitClassification (libs : ContentLibs) (domain location : String) : List SecurityWarning :=
  match classifyDomain libs domain with
  | none => []
  | some c =>
      (if c.mixedScript then
          [warningAt .lookalikeMixedScript ("domain=" ++ c.ascii ++ ",unicode=" ++ c.unicode)
            location]
        else []) ++
        if c.wasPunycode then
          [warningAt .lookalikeIdnPunycode ("domain=" ++ c.ascii ++ ",ulabel=" ++ c.unicode)
            location]
        else []

/-- `strip_prefix("www.")`. -/
def stripWww : List Char → List Char
  | 'w' :: 'w' :: 'w' :: '.' :: rest => rest
  | host => host

def extractDomainFromUrl (url : String) : Option String :=
  let trimmed := trim url.toList
  let hostWithUserinfo := upTo ['/', '?', '#'] ((afterScheme trimmed).getD trimmed)
  let host := hostWithUserinfo.rtakeWhile (· != '@')
  let host := stripWww (upTo [':'] host)
  if host.isEmpty || !host.contains '.' then none else some (.ofList host)

def pushDomainsFrom (group : Option Address) (label : String) : List (String × String) :=
  ((group.map Address.addrs).getD []).filterMap fun addr =>
    (addrDomain addr).map fun domain => (domain, label)

def collectHeaderDomains (message : Message) : List (String × String) :=
  pushDomainsFrom message.sender "header:from" ++ pushDomainsFrom message.recipients "header:to" ++
    pushDomainsFrom message.cc "header:cc" ++ pushDomainsFrom message.replyTo "header:reply_to"

def MAX_LINKIFY_SCAN_BYTES : Nat := 64 * 1024

/-- The domains that `lookalike::audit` classifies, with where they come from. -/
def auditedDomains (libs : ContentLibs) (message : Message) (bodies : BodyWalkState) :
    List (String × String) :=
  let scanned := truncateGraphemes libs.toUnicodeLibs (bodies.primaryText.getD "").toList
    MAX_LINKIFY_SCAN_BYTES
  collectHeaderDomains message ++
    (bodies.anchorHrefs.filterMap fun href =>
      (extractDomainFromUrl href).map fun domain => (domain, "html:anchor_href")) ++
    ((libs.links true (.ofList scanned)).filter (·.1)).filterMap fun link =>
      (extractDomainFromUrl link.2).map fun domain => (domain, "body:text")

/-- `lookalike::audit`. -/
def audit (libs : ContentLibs) (message : Message) (bodies : BodyWalkState) :
    List SecurityWarning :=
  (auditedDomains libs message bodies).flatMap fun entry =>
    emitClassification libs entry.1 entry.2

/-! ## The pipeline -/

structure Content where
  metadata : ContentMeta
  bodyText : String
  bodyHtml : Option String
  alternateParts : List String
  securityWarnings : List SecurityWarning

/-- `parse_message_with_headers`. -/
def parseMessageWithHeaders (libs : ContentLibs) (raw : Bytes) (wanted : List String) :
    Except ContentError (Content × List SelectedHeader) :=
  if MAX_MESSAGE_BYTES < raw.length then
    .error (.limitExceeded "message_bytes" MAX_MESSAGE_BYTES)
  else
    let scrubbed := scrubHeaderSmuggling libs raw
    match libs.safeParse scrubbed.1 with
    | .error () => .error .parserPanic
    | .ok none => .error (.malformed "mail-parser rejected byte stream")
    | .ok (some message) =>
        if MAX_HEADER_COUNT < message.headers.length then
          .error (.limitExceeded "header_count" MAX_HEADER_COUNT)
        else
          let extracted := extractMeta libs message raw.length
          match extractBodies libs message with
          | .error e => .error e
          | .ok bodies =>
              let selected := extractSelectedHeaders libs message scrubbed.1 wanted
              .ok
                ({ metadata := { extracted.1 with bodyTruncated := bodies.bodyTruncated }
                   bodyText := bodies.primaryText.getD ""
                   bodyHtml := bodies.bodyHtml
                   alternateParts := bodies.alternates
                   securityWarnings := scrubbed.2 ++ extracted.2 ++ bodies.warnings ++
                     audit libs message bodies ++ selected.2 },
                  selected.1)

/-! ## The strings of a result -/

def MailingListInfo.strings (info : MailingListInfo) : List String :=
  info.listId.toList ++ info.listUnsubscribe.toList ++ info.listPost.toList

def AttachmentMeta.strings (attachment : AttachmentMeta) : List String :=
  attachment.filename.toList ++ [attachment.contentType] ++ attachment.contentId.toList

def ContentMeta.strings (metadata : ContentMeta) : List String :=
  metadata.sender.toList ++ metadata.recipients ++ metadata.cc ++ metadata.replyTo.toList ++
    metadata.subject.toList ++ metadata.messageId.toList ++ metadata.inReplyTo.toList ++
    metadata.references ++ metadata.mailingList.toList.flatMap MailingListInfo.strings ++
    metadata.attachments.flatMap AttachmentMeta.strings

/-- Every string of a result but the details of its warnings. -/
def texts (content : Content) (selected : List SelectedHeader) : List String :=
  content.metadata.strings ++ [content.bodyText] ++ content.bodyHtml.toList ++
    content.alternateParts ++ selected.flatMap fun header => header.name :: header.values

/-- No string of the result has a code point that `filter_codepoints` removes. -/
def resultClean (content : Content) (selected : List SelectedHeader) : Bool :=
  (texts content selected).all clean && cleanWarnings content.securityWarnings

/-! ## The strings that are not filtered -/

/-- The ASCII form of a domain with a bidi override. -/
def bidiQuotes (libs : ContentLibs) (addr : Addr) : List String :=
  match addr.address.bind afterLastAt with
  | some domain =>
      if containsBidiOverride domain then [(libs.domainToAscii (trimStr domain)).getD "invalid"]
      else []
  | none => []

def addressQuotes (libs : ContentLibs) : HeaderValue → List String
  | .address address => address.addrs.flatMap (bidiQuotes libs)
  | .text _ | .textList _ | .dateTime | .contentType | .received | .empty => []

/-- The magic bytes of an attachment are of several types, or of none that goes with
    the declared one. -/
def isSuspicious (part : Part) : Bool :=
  let sniffed := sniffContentTypes (partBytes part)
  decide (1 < sniffed.length) ||
    (!sniffed.isEmpty && !sniffed.any (contentTypesCompatible (declaredContentType part)))

def metaQuotes (libs : ContentLibs) (message : Message) : List String :=
  ((message.sender.bind Address.first).toList ++
      (message.recipients.map Address.addrs).getD [] ++ (message.cc.map Address.addrs).getD [] ++
      (message.replyTo.bind Address.first).toList).flatMap (bidiQuotes libs) ++
    [message.listId, message.listUnsubscribe, message.listPost].flatMap (addressQuotes libs) ++
    ((attachmentParts message).filter fun entry => isSuspicious entry.1).map fun entry =>
      declaredContentType entry.1

/-- A domain that is reported, in both forms. -/
def domainQuotes (libs : ContentLibs) (domain : String) : List String :=
  match classifyDomain libs domain with
  | some c => if c.mixedScript || c.wasPunycode then [c.ascii, c.unicode] else []
  | none => []

/-- The bytes and the charset of the HTML part that may be surfaced. -/
def htmlSource (message : Message) : Option (Bytes × Option String) :=
  match message.htmlBody.head?.bind fun partId => message.parts[partId]? with
  | some part =>
      match part.body with
      | .html s => some (utf8Bytes s, partCharset part)
      | _ => none
  | none => none

/-- The HTML part, when it is surfaced: as ammonia leaves it, and what its anchors
    say. -/
def htmlQuotes (libs : ContentLibs) (message : Message) (bodies : BodyWalkState) : List String :=
  match bodies.bodyHtml, htmlSource message with
  | some _, some (bytes, charset) =>
      libs.ammoniaClean (libs.decode bytes charset) ::
        anchorQuotes libs.toHtmlLibs bytes charset
  | _, _ => []

/-- The names that are echoed, and the addresses among the selected headers. -/
def selectedQuotes (libs : ContentLibs) (message : Message) (raw : Bytes)
    (wanted : List String) : List String :=
  wanted.flatMap fun name =>
    (selectHeader libs message raw name).1.map SelectedHeader.name ++
      (message.headers.filter fun header => eqIgnoreAsciiCase header.name name).flatMap
        fun header => addressQuotes libs header.value

/-- All strings that reach the result around the Unicode pipeline. -/
def unfiltered (libs : ContentLibs) (message : Message) (bodies : BodyWalkState) (raw : Bytes)
    (wanted : List String) : List String :=
  metaQuotes libs message ++ htmlQuotes libs message bodies ++
    ((auditedDomains libs message bodies).flatMap fun entry => domainQuotes libs entry.1) ++
    selectedQuotes libs message raw wanted

/-! ## Each stage -/

section

variable (libs : ContentLibs)

theorem clean_sanitizeHeader (raw location : String) :
    clean (sanitizeHeader libs raw location).1 = true :=
  clean_sanitize _ _ _ _ _

theorem cleanWarnings_sanitizeHeader (raw location : String) :
    cleanWarnings (sanitizeHeader libs raw location).2 = true :=
  cleanWarnings_sanitize _ _ _ _ _

theorem clean_join {sep : String} (hsep : clean sep = true) {l : List String}
    (hl : l.all clean = true) : clean (join sep l) = true := by
  induction l with
  | nil => rfl
  | cons s rest ih =>
      rw [List.all_cons, Bool.and_eq_true] at hl
      rcases rest with _ | ⟨s', rest⟩
      · exact hl.1
      · change clean (s ++ sep ++ join sep (s' :: rest)) = true
        rw [clean_append, clean_append, hl.1, hsep, ih hl.2]
        rfl

/-- A name in the report of the scrubber is sanitized. -/
theorem clean_droppedName {line : Bytes} {name : String} (h : droppedName libs line = some name) :
    clean name = true := by
  unfold droppedName at h
  split at h
  · split at h
    · dsimp only at h
      split at h
      · cases h
      · rw [← Option.some.inj h]
        exact clean_sanitize _ _ _ _ _
    · cases h
  · cases h

theorem clean_names (lines : List Bytes) :
    clean (join "," ((lines.filterMap (droppedName libs)).take 8)) = true := by
  apply clean_join rfl
  rw [List.all_eq_true]
  intro name hname
  obtain ⟨line, -, hline⟩ := List.mem_filterMap.mp (List.mem_of_mem_take hname)
  exact clean_droppedName libs hline

theorem cleanWarnings_scrubHeaderSmuggling (raw : Bytes) :
    cleanWarnings (scrubHeaderSmuggling libs raw).2 = true := by
  unfold scrubHeaderSmuggling
  split
  · rfl
  · dsimp only
    split
    · rfl
    · have hcount : clean "count=" = true := rfl
      have hnames : clean " names=[" = true := rfl
      have hclose : clean "]" = true := rfl
      rw [cleanWarnings_cons, cleanWarnings_nil, Bool.and_true]
      split
      · simp [hcount]
      · rw [clean_append, clean_append, clean_append, clean_names libs, hnames, hclose]
        simp [hcount]

theorem cleanWarnings_auditAddrDomainBidi (addr : Addr) (location : String) :
    cleanWarnings (auditAddrDomainBidi libs addr location) = (bidiQuotes libs addr).all clean := by
  have hdomain : clean "domain=" = true := rfl
  have hreason : clean ",reason=bidi_pre_strip" = true := rfl
  unfold auditAddrDomainBidi bidiQuotes
  split
  · split
    · simp [hdomain, hreason]
    · rfl
  · rfl

theorem cleanWarnings_collect {α β : Type} (f : α → β × List SecurityWarning) (l : List α) :
    cleanWarnings (collect f l).2 = l.all fun a => cleanWarnings (f a).2 :=
  cleanWarnings_flatMap l _

theorem clean_sanitizeAddr (location : String) (addr : Addr) :
    clean (sanitizeAddr libs location addr).1 = true :=
  clean_sanitizeHeader libs (formatAddr addr) location

theorem cleanWarnings_sanitizeAddr (location : String) (addr : Addr) :
    cleanWarnings (sanitizeAddr libs location addr).2 = (bidiQuotes libs addr).all clean := by
  rw [sanitizeAddr, cleanWarnings_append, cleanWarnings_auditAddrDomainBidi,
    cleanWarnings_sanitizeHeader, Bool.and_true]

theorem addressStrings_clean (address : Option Address) (location : String) :
    (addressStrings libs address location).1.all clean = true ∧
      cleanWarnings (addressStrings libs address location).2 =
        (((address.map Address.addrs).getD []).flatMap (bidiQuotes libs)).all clean := by
  constructor
  · simp [addressStrings, collect, clean_sanitizeAddr]
  · rw [addressStrings, cleanWarnings_collect, List.all_flatMap]
    simp only [cleanWarnings_sanitizeAddr]

theorem firstAddressString_clean (address : Option Address) (location : String) :
    (firstAddressString libs address location).1.toList.all clean = true ∧
      cleanWarnings (firstAddressString libs address location).2 =
        ((address.bind Address.first).toList.flatMap (bidiQuotes libs)).all clean := by
  unfold firstAddressString
  rcases address.bind Address.first with _ | addr
  · exact ⟨rfl, rfl⟩
  · simp [optional, clean_sanitizeAddr, cleanWarnings_sanitizeAddr]

theorem sanitizeOptStr_clean (value : Option String) (location : String) :
    (sanitizeOptStr libs value location).1.toList.all clean = true ∧
      cleanWarnings (sanitizeOptStr libs value location).2 = true := by
  rcases value with _ | s
  · exact ⟨rfl, rfl⟩
  · simp [sanitizeOptStr, optional, clean_sanitizeHeader, cleanWarnings_sanitizeHeader]

theorem headerValueFirstText_clean (value : HeaderValue) (location : String) :
    (headerValueFirstText libs value location).1.toList.all clean = true ∧
      cleanWarnings (headerValueFirstText libs value location).2 = true := by
  unfold headerValueFirstText
  split
  · exact sanitizeOptStr_clean libs _ _
  · exact sanitizeOptStr_clean libs _ _
  all_goals exact ⟨rfl, rfl⟩

theorem headerValueAllText_clean (value : HeaderValue) (location : String) :
    (headerValueAllText libs value location).1.all clean = true ∧
      cleanWarnings (headerValueAllText libs value location).2 = true := by
  have hcollect (list : List String) :
      (collect (fun s => sanitizeHeader libs s location) list).1.all clean = true ∧
        cleanWarnings (collect (fun s => sanitizeHeader libs s location) list).2 = true := by
    rw [cleanWarnings_collect]
    simp [collect, clean_sanitizeHeader, cleanWarnings_sanitizeHeader]
  unfold headerValueAllText
  split
  · exact hcollect _
  · exact hcollect _
  all_goals exact ⟨rfl, rfl⟩

theorem sanitizeNonempty_clean (raw location : String) (audits : List SecurityWarning) :
    (sanitizeNonempty libs raw location audits).1.toList.all clean = true ∧
      cleanWarnings (sanitizeNonempty libs raw location audits).2 = cleanWarnings audits := by
  unfold sanitizeNonempty
  split
  · exact ⟨rfl, rfl⟩
  · simp [clean_sanitizeHeader, cleanWarnings_sanitizeHeader]

theorem sanitizeHeaderValue_clean (value : HeaderValue) (location : String) :
    (sanitizeHeaderValue libs value location).1.toList.all clean = true ∧
      cleanWarnings (sanitizeHeaderValue libs value location).2 =
        (addressQuotes libs value).all clean := by
  rcases value with s | list | address | _ | _ | _ | _
  · exact sanitizeNonempty_clean libs _ _ _
  · exact sanitizeNonempty_clean libs _ _ _
  · obtain ⟨htext, hwarnings⟩ := sanitizeNonempty_clean libs
      (join ", " (address.addrs.map formatAddr)) location
      (address.addrs.flatMap fun addr => auditAddrDomainBidi libs addr location)
    refine ⟨htext, hwarnings.trans ?_⟩
    rw [cleanWarnings_flatMap, addressQuotes, List.all_flatMap]
    simp only [cleanWarnings_auditAddrDomainBidi]
  all_goals exact ⟨rfl, rfl⟩

theorem extractMailingList_clean (message : Message) :
    ((extractMailingList libs message).1.toList.flatMap MailingListInfo.strings).all clean = true ∧
      cleanWarnings (extractMailingList libs message).2 =
        ([message.listId, message.listUnsubscribe, message.listPost].flatMap
          (addressQuotes libs)).all clean := by
  obtain ⟨hid, hid'⟩ := sanitizeHeaderValue_clean libs message.listId "header:list_id"
  obtain ⟨hunsub, hunsub'⟩ :=
    sanitizeHeaderValue_clean libs message.listUnsubscribe "header:list_unsubscribe"
  obtain ⟨hpost, hpost'⟩ := sanitizeHeaderValue_clean libs message.listPost "header:list_post"
  constructor
  · unfold extractMailingList
    dsimp only
    split
    · rfl
    · simp only [Option.toList_some, List.flatMap_cons, List.flatMap_nil, List.append_nil,
        MailingListInfo.strings, List.all_append, hid, hunsub, hpost, Bool.and_self]
  · simp [extractMailingList, hid', hunsub', hpost', Bool.and_assoc]

/-! ### Attachments -/

/-- `Debug` escapes what is removed elsewhere. -/
theorem clean_debugStr (s : String) : clean (debugStr libs s) = true := by
  have hescaped : ∀ c d, d ∈ escapeDebug libs c → stripped d = false := by
    intro c d hd
    unfold escapeDebug at hd
    have hpair : ∀ x : Char, 0x20 ≤ x.toNat → x.toNat < 0x80 →
        d ∈ ['\\', x] → stripped d = false := by
      intro x hlow hhigh hd
      rcases List.mem_pair.mp hd with rfl | rfl
      · rfl
      · exact stripped_of_ascii hlow hhigh
    split at hd
    · exact hpair '0' (by decide) (by decide) hd
    split at hd
    · exact hpair 't' (by decide) (by decide) hd
    split at hd
    · exact hpair 'r' (by decide) (by decide) hd
    split at hd
    · exact hpair 'n' (by decide) (by decide) hd
    split at hd
    · exact hpair '"' (by decide) (by decide) hd
    split at hd
    · exact hpair '\\' (by decide) (by decide) hd
    split at hd
    · rename_i hprintable
      rw [List.mem_singleton.mp hd, Bool.eq_false_iff]
      intro hstripped
      rw [libs.not_printable c hstripped] at hprintable
      cases hprintable
    · rcases List.mem_append.mp hd with hd | hd
      · rcases List.mem_append.mp hd with hd | hd
        · simp only [List.mem_cons, List.not_mem_nil, or_false] at hd
          rcases hd with rfl | rfl | rfl <;> rfl
        · obtain ⟨hlow, hhigh⟩ := toDigits_ascii (by decide) (by decide) d hd
          exact stripped_of_ascii hlow hhigh
      · rw [List.mem_singleton.mp hd]
        rfl
  rw [debugStr, clean_ofList, List.all_eq_true]
  intro d hd
  rw [List.mem_append, List.mem_cons, List.mem_singleton, List.mem_flatMap] at hd
  rcases hd with (rfl | ⟨c, -, hd⟩) | rfl
  · rfl
  · rw [hescaped c d hd]
    rfl
  · rfl

theorem clean_joinSegments {name : String} (h : clean name = true) :
    clean (joinSegments name) = true := by
  apply clean_join rfl
  rw [List.all_eq_true]
  intro part hpart
  obtain ⟨segment, hsegment, rfl⟩ := List.mem_map.mp hpart
  split
  · rfl
  · exact clean_of_subset h fun c hc => SeparatedItems.mem_of_mem_splitOnP hsegment hc

theorem mem_of_mem_trimName {name : List Char} {c : Char} (hc : c ∈ trimName name) : c ∈ name := by
  have hdropped := (List.rdropWhile_prefix _ _).subset hc
  exact List.mem_of_mem_filter ((List.dropWhile_suffix _).subset hdropped)

theorem mem_of_mem_avoidReserved {name : List Char} {c : Char} (hc : c ∈ avoidReserved name) :
    c = '_' ∨ c ∈ name := by
  unfold avoidReserved at hc
  split at hc
  · exact List.mem_cons.mp hc
  · exact .inr hc

/-- The rules for file names bring in nothing but underscores. -/
theorem clean_sanitizeFilename {name : String} (h : clean name = true) (idx : Nat) :
    clean (sanitizeFilename libs name idx).1 = true := by
  unfold sanitizeFilename
  dsimp only
  split
  · have hname : clean "attachment_" = true := rfl
    simp [hname]
  · rw [clean_ofList, List.all_eq_true]
    intro c hc
    rcases mem_of_mem_avoidReserved (mem_truncateGraphemes hc) with rfl | hc
    · rfl
    · exact List.all_eq_true.mp (clean_joinSegments h) c (mem_of_mem_trimName hc)

theorem detectDoubleExtension_clean {name penultimate finalExt : String}
    (h : detectDoubleExtension name = some (penultimate, finalExt)) :
    clean penultimate = true ∧ clean finalExt = true := by
  have hdocument : DOCUMENT_EXTENSIONS.all clean = true := by decide
  have hexecutable : EXECUTABLE_EXTENSIONS.all clean = true := by decide
  unfold detectDoubleExtension at h
  split at h
  · dsimp only at h
    split at h
    · rename_i hlisted
      cases h
      rw [Bool.and_eq_true, List.contains_iff_mem, List.contains_iff_mem] at hlisted
      exact ⟨List.all_eq_true.mp hdocument _ hlisted.1, List.all_eq_true.mp hexecutable _ hlisted.2⟩
    · cases h
  · cases h

theorem sanitizeAttachmentFilename_clean (idx : Nat) (name : String) :
    clean (sanitizeAttachmentFilename libs idx name).1 = true ∧
      cleanWarnings (sanitizeAttachmentFilename libs idx name).2 = true := by
  have hraw : clean "raw=" = true := rfl
  have hbidi : clean ",contains_bidi_override=true" = true := rfl
  have horiginal : clean "original=" = true := rfl
  have hreason : clean ",reason=double_extension,visible=." = true := rfl
  have hdeclared : clean ",declared=." = true := rfl
  have hdot : clean "." = true := rfl
  have hclean := clean_sanitizeHeader libs name ("attachment[" ++ toString idx ++ "]:filename")
  unfold sanitizeAttachmentFilename
  dsimp only
  refine ⟨clean_sanitizeFilename libs hclean idx, ?_⟩
  rw [cleanWarnings_append, cleanWarnings_append, cleanWarnings_append,
    cleanWarnings_sanitizeHeader, Bool.and_true, Bool.and_eq_true, Bool.and_eq_true]
  refine ⟨⟨?_, ?_⟩, ?_⟩
  · split
    · simp [hraw, hbidi, clean_debugStr]
    · rfl
  · split
    · simp [horiginal, clean_debugStr]
    · rfl
  · split
    · rename_i penult finalExt hdouble
      obtain ⟨hpenult, hfinal⟩ := detectDoubleExtension_clean hdouble
      simp [hraw, hreason, hdeclared, hdot, clean_debugStr, hpenult, hfinal]
    · rfl

/-- What magic bytes stand for is a text of the program. -/
theorem clean_sniffed (body : Bytes) : (sniffContentTypes body).all clean = true := by
  have hlabels : (signatures.map Prod.snd).all clean = true := by decide
  have hfold (table : List (Bytes × String)) (found : List String)
      (htable : (table.map Prod.snd).all clean = true) (hfound : found.all clean = true) :
      (table.foldl (fun found (sig, label) =>
        if sig.isPrefixOf body && !found.contains label then found ++ [label] else found)
        found).all clean = true := by
    induction table generalizing found with
    | nil => exact hfound
    | cons entry rest ih =>
        rw [List.map_cons, List.all_cons, Bool.and_eq_true] at htable
        apply ih _ htable.2
        dsimp only
        split
        · simp [hfound, htable.1]
        · exact hfound
  exact hfold signatures [] hlabels rfl

theorem cleanWarnings_sniffWarnings (part : Part) (idx : Nat) :
    cleanWarnings (sniffWarnings part idx) =
      (!isSuspicious part || clean (declaredContentType part)) := by
  have hdeclared : clean "declared=" = true := rfl
  have hsniffed : clean " sniffed=" = true := rfl
  have hjoin : clean (join "," (sniffContentTypes (partBytes part))) = true :=
    clean_join rfl (clean_sniffed _)
  have hwarning (flagged : Bool) (code : WarningCode) :
      cleanWarnings (if flagged then
        [warningAt code ("declared=" ++ declaredContentType part ++ " sniffed=" ++
          join "," (sniffContentTypes (partBytes part))) ("attachment[" ++ toString idx ++ "]")]
        else []) = (!flagged || clean (declaredContentType part)) := by
    rcases flagged with _ | _
    · rfl
    · simp [hdeclared, hsniffed, hjoin]
  have hpolyglot := hwarning (decide (1 < (sniffContentTypes (partBytes part)).length))
    .parseAttachmentPolyglot
  simp only [decide_eq_true_eq] at hpolyglot
  unfold sniffWarnings isSuspicious
  dsimp only
  rw [cleanWarnings_append, hpolyglot, hwarning, Bool.not_or, Bool.or_and_distrib_right]

theorem buildAttachmentMeta_clean (part : Part) (idx : Nat) :
    (buildAttachmentMeta libs part idx).1.strings.all clean = true ∧
      cleanWarnings (buildAttachmentMeta libs part idx).2 =
        (!isSuspicious part || clean (declaredContentType part)) := by
  have hfilename :
      ((optional (sanitizeAttachmentFilename libs idx) part.attachmentName).1.toList.all
        clean = true) ∧
      cleanWarnings (optional (sanitizeAttachmentFilename libs idx) part.attachmentName).2 =
        true := by
    rcases part.attachmentName with _ | name
    · exact ⟨rfl, rfl⟩
    · simp [optional, sanitizeAttachmentFilename_clean]
  obtain ⟨hid, hid'⟩ := sanitizeOptStr_clean libs part.contentId
    ("attachment[" ++ toString idx ++ "]:content_id")
  rw [sanitizeOptStr] at hid hid'
  constructor
  · simp only [buildAttachmentMeta, AttachmentMeta.strings, List.all_append, hfilename.1, hid,
      List.all_cons, List.all_nil, clean_sanitizeHeader, Bool.and_self]
  · simp only [buildAttachmentMeta, cleanWarnings_append, cleanWarnings_sniffWarnings,
      hfilename.2, hid', cleanWarnings_sanitizeHeader, Bool.and_true]

theorem extractAttachments_clean (message : Message) :
    ((extractAttachments libs message).1.flatMap AttachmentMeta.strings).all clean = true ∧
      cleanWarnings (extractAttachments libs message).2 =
        (((attachmentParts message).filter fun entry => isSuspicious entry.1).map
          fun entry => declaredContentType entry.1).all clean := by
  constructor
  · simp [extractAttachments, collect, List.all_flatMap, buildAttachmentMeta_clean]
  · rw [extractAttachments, cleanWarnings_collect, List.all_map, List.all_filter]
    simp only [buildAttachmentMeta_clean, Function.comp_def]

/-- **The metadata is clean**, and its warnings are if what they quote is. -/
theorem extractMeta_clean (message : Message) (size : Nat) :
    (extractMeta libs message size).1.strings.all clean = true ∧
      cleanWarnings (extractMeta libs message size).2 = (metaQuotes libs message).all clean := by
  obtain ⟨hsender, hsender'⟩ := firstAddressString_clean libs message.sender "header:from"
  obtain ⟨hto, hto'⟩ := addressStrings_clean libs message.recipients "header:to"
  obtain ⟨hcc, hcc'⟩ := addressStrings_clean libs message.cc "header:cc"
  obtain ⟨hreply, hreply'⟩ := firstAddressString_clean libs message.replyTo "header:reply_to"
  obtain ⟨hsubject, hsubject'⟩ := sanitizeOptStr_clean libs message.subject "header:subject"
  obtain ⟨hid, hid'⟩ := sanitizeOptStr_clean libs message.messageId "header:message_id"
  obtain ⟨hin, hin'⟩ := headerValueFirstText_clean libs message.inReplyTo "header:in_reply_to"
  obtain ⟨href, href'⟩ := headerValueAllText_clean libs message.references "header:references"
  obtain ⟨hlist, hlist'⟩ := extractMailingList_clean libs message
  obtain ⟨hatt, hatt'⟩ := extractAttachments_clean libs message
  constructor
  · simp only [extractMeta, ContentMeta.strings, List.all_append, hsender, hto, hcc, hreply,
      hsubject, hid, hin, href, hlist, hatt, Bool.and_self]
  · simp only [extractMeta, cleanWarnings_append, hsender', hto', hcc', hreply', hsubject', hid',
      hin', href', hlist', hatt', metaQuotes, List.flatMap_append, List.all_append, Bool.and_true]

/-! ### Selected headers -/

theorem clean_trimStr {s : String} (h : clean s = true) : clean (trimStr s) = true := by
  apply clean_of_subset h
  intro c hc
  have hdropped := List.mem_reverse.mp ((List.dropWhile_suffix _).subset (List.mem_reverse.mp hc))
  exact (List.dropWhile_suffix _).subset hdropped

theorem rawHeaderSlice_clean (header : Header) (raw : Bytes) (location : String) :
    (rawHeaderSlice libs header raw location).1.toList.all clean = true ∧
      cleanWarnings (rawHeaderSlice libs header raw location).2 = true := by
  unfold rawHeaderSlice
  split
  · dsimp only
    refine ⟨?_, cleanWarnings_sanitize _ _ _ _ _⟩
    split
    · rfl
    · simp [clean_trimStr, clean_sanitize]
  · exact ⟨rfl, rfl⟩

theorem coerceHeaderValue_clean (raw : Bytes) (location : String) (header : Header) :
    (coerceHeaderValue libs raw location header).1.toList.all clean = true ∧
      cleanWarnings (coerceHeaderValue libs raw location header).2 =
        (addressQuotes libs header.value).all clean := by
  obtain ⟨name, value, offsetStart, offsetEnd⟩ := header
  rcases value with s | list | address | _ | _ | _ | _
  · exact sanitizeHeaderValue_clean libs _ _
  · exact sanitizeHeaderValue_clean libs _ _
  · exact sanitizeHeaderValue_clean libs _ _
  · exact rawHeaderSlice_clean libs _ _ _
  · exact rawHeaderSlice_clean libs _ _ _
  · exact rawHeaderSlice_clean libs _ _ _
  · exact ⟨rfl, rfl⟩

/-- The strings of selected headers. -/
def selectedTexts (selected : List SelectedHeader) : List String :=
  selected.flatMap fun header => header.name :: header.values

theorem selectHeader_clean (message : Message) (raw : Bytes) (name : String) :
    (selectedTexts (selectHeader libs message raw name).1).all clean =
        ((selectHeader libs message raw name).1.map SelectedHeader.name).all clean ∧
      cleanWarnings (selectHeader libs message raw name).2 =
        ((message.headers.filter fun header => eqIgnoreAsciiCase header.name name).flatMap
          fun header => addressQuotes libs header.value).all clean := by
  constructor
  · unfold selectHeader
    dsimp only
    split
    · rfl
    · have hvalues : ∀ (location : String) (headers : List Header),
          (((collect (coerceHeaderValue libs raw location) headers).1).filterMap id).all clean =
            true := by
        intro location headers
        rw [List.all_eq_true]
        intro value hvalue
        simp only [collect, List.mem_filterMap, List.mem_map, id_eq] at hvalue
        obtain ⟨_, ⟨header, -, rfl⟩, hsome⟩ := hvalue
        have hclean := (coerceHeaderValue_clean libs raw location header).1
        rw [hsome] at hclean
        simpa using hclean
      simp only [selectedTexts, List.flatMap_cons, List.flatMap_nil, List.append_nil,
        List.all_cons, hvalues, Bool.and_true, List.map_cons, List.map_nil, List.all_nil]
  · rw [selectHeader, cleanWarnings_collect, List.all_flatMap]
    simp only [coerceHeaderValue_clean]

theorem extractSelectedHeaders_clean (message : Message) (raw : Bytes) (wanted : List String) :
    ((selectedTexts (extractSelectedHeaders libs message raw wanted).1).all clean &&
        cleanWarnings (extractSelectedHeaders libs message raw wanted).2) =
      (selectedQuotes libs message raw wanted).all clean := by
  induction wanted with
  | nil => rfl
  | cons name rest ih =>
      obtain ⟨htexts, hwarnings⟩ := selectHeader_clean libs message raw name
      have hhead : ((selectedTexts (selectHeader libs message raw name).1).all clean &&
          cleanWarnings (selectHeader libs message raw name).2) =
          (selectedQuotes libs message raw [name]).all clean := by
        simp only [selectedQuotes, List.flatMap_cons, List.flatMap_nil, List.append_nil,
          List.all_append, htexts, hwarnings]
      have hquotes : selectedQuotes libs message raw (name :: rest) =
          selectedQuotes libs message raw [name] ++ selectedQuotes libs message raw rest := by
        simp [selectedQuotes]
      have hselected : selectedTexts (extractSelectedHeaders libs message raw (name :: rest)).1 =
          selectedTexts (selectHeader libs message raw name).1 ++
            selectedTexts (extractSelectedHeaders libs message raw rest).1 := by
        simp [selectedTexts, extractSelectedHeaders, collect]
      have hcollected : (extractSelectedHeaders libs message raw (name :: rest)).2 =
          (selectHeader libs message raw name).2 ++
            (extractSelectedHeaders libs message raw rest).2 := by
        simp [extractSelectedHeaders, collect]
      rw [hquotes, hselected, hcollected, List.all_append, List.all_append, cleanWarnings_append,
        ← hhead, ← ih]
      simp only [Bool.and_assoc, Bool.and_left_comm]

/-! ### Bodies -/

/-- What holds of the state of the walk: its texts are clean, and only the HTML part
    brings in strings that are not filtered. -/
structure BodyInv (source : Option (Bytes × Option String)) (state : BodyWalkState) : Prop where
  primaryText : state.primaryText.toList.all clean = true
  alternates : state.alternates.all clean = true
  plain : state.bodyHtml = none → cleanWarnings state.warnings = true
  html : ∀ html, state.bodyHtml = some html → ∃ bytes charset, source = some (bytes, charset) ∧
    html = libs.ammoniaClean (libs.decode bytes charset) ∧
    cleanWarnings state.warnings = (anchorQuotes libs.toHtmlLibs bytes charset).all clean

variable {libs} {source : Option (Bytes × Option String)} {state : BodyWalkState}

/-- A warning that is clean changes nothing. -/
theorem BodyInv.addWarning (h : BodyInv libs source state) {warning : SecurityWarning}
    (hwarning : cleanWarnings [warning] = true) :
    BodyInv libs source
      { state with bodyTruncated := true, warnings := state.warnings ++ [warning] } where
  primaryText := h.primaryText
  alternates := h.alternates
  plain hnone := by rw [cleanWarnings_append, h.plain hnone, hwarning, Bool.and_true]
  html html hsome := by
    rw [cleanWarnings_append, hwarning, Bool.and_true]
    exact h.html html hsome

/-- A text that has been sanitized. -/
theorem BodyInv.texts_addText (h : BodyInv libs source state) {text : String}
    (htext : clean text = true) (warnings : List SecurityWarning) :
    (state.addText text warnings).primaryText.toList.all clean = true ∧
      (state.addText text warnings).alternates.all clean = true := by
  have hprimary := h.primaryText
  rcases hold : state.primaryText with _ | old
  · simp [BodyWalkState.addText, hold, htext, h.alternates]
  · rw [hold] at hprimary
    simp only [Option.toList_some, List.all_cons, List.all_nil, Bool.and_true] at hprimary
    simp [BodyWalkState.addText, hold, hprimary, htext, h.alternates]

theorem BodyInv.decodeTextPart (h : BodyInv libs source state) (part : Part) (rawBytes : Bytes)
    (idx : Nat) : BodyInv libs source (decodeTextPart libs part rawBytes idx state) := by
  have hclean := clean_sanitize libs.toUnicodeLibs rawBytes (partCharset part) MAX_BODY_BYTES
    ("body:text[" ++ toString idx ++ "]")
  have hwarnings := cleanWarnings_sanitize libs.toUnicodeLibs rawBytes (partCharset part)
    MAX_BODY_BYTES ("body:text[" ++ toString idx ++ "]")
  have hadd (warnings : List SecurityWarning) (hw : cleanWarnings warnings = true)
      (truncated : Bool) (text : String) (htext : clean text = true) :
      BodyInv libs source ({ state with bodyTruncated := truncated }.addText text warnings) := by
    obtain ⟨hprimary, halternates⟩ := h.texts_addText htext warnings
    refine ⟨hprimary, halternates, ?_, ?_⟩
    · intro hnone
      rw [BodyWalkState.addText, cleanWarnings_append, hw, Bool.and_true]
      exact h.plain hnone
    · intro html hsome
      rw [BodyWalkState.addText, cleanWarnings_append, hw, Bool.and_true]
      exact h.html html hsome
  unfold ContentParse.decodeTextPart
  dsimp only
  split
  · refine hadd _ ?_ true _ hclean
    have horiginal : clean "original=" = true := rfl
    have hlimit : clean " limit=" = true := rfl
    rw [← List.singleton_append, cleanWarnings_append, hwarnings]
    simp [horiginal, hlimit]
  · exact hadd _ hwarnings state.bodyTruncated _ hclean

theorem BodyInv.sanitizeHtmlPart (h : BodyInv libs source state) {part : Part} {rawBytes : Bytes}
    (hsource : source = some (rawBytes, partCharset part)) {state' : BodyWalkState}
    (hok : sanitizeHtmlPart libs part rawBytes state = .ok state') :
    BodyInv libs source state' := by
  unfold ContentParse.sanitizeHtmlPart at hok
  split at hok
  · rename_i result hresult
    cases hok
    obtain ⟨htext, hhtml, hwarnings⟩ := sanitizeHtml_ok hresult
    obtain ⟨hprimary, halternates⟩ := h.texts_addText htext result.warnings
    refine ⟨hprimary, halternates, nofun, ?_⟩
    rintro html ⟨rfl⟩
    refine ⟨_, _, hsource, hhtml, ?_⟩
    rw [BodyWalkState.addText, cleanWarnings_append, hwarnings]
    -- the part was surfaced before, or nothing but filtered text was
    rcases hbefore : state.bodyHtml with _ | before
    · rw [h.plain hbefore, Bool.true_and]
    · obtain ⟨bytes, charset, hsource', -, hwarnings'⟩ := h.html before hbefore
      rw [hsource] at hsource'
      cases hsource'
      rw [hwarnings', Bool.and_self]
  · rename_i kind limit hlimit
    cases hok
    have hkind : kind = "html_body" := by
      unfold sanitizeHtml at hlimit
      split at hlimit
      · cases hlimit
        rfl
      · cases hlimit
    have horiginal : clean "original=" = true := rfl
    have hlimit' : clean " limit=" = true := rfl
    have hkind' : clean " kind=" = true := rfl
    have hname : clean "html_body" = true := rfl
    apply h.addWarning
    simp [hkind, horiginal, hlimit', hkind', hname]
  · cases hok

theorem htmlSource_of_part {message : Message} {partId : Nat} {part : Part} {s : String}
    (hprimary : message.htmlBody.head? = some partId) (hpart : message.parts[partId]? = some part)
    (hbody : part.body = .html s) :
    htmlSource message = some (utf8Bytes s, partCharset part) := by
  simp [htmlSource, hprimary, hpart, hbody]

theorem BodyInv.walkTextBody {message : Message} (todo : List (Nat × Nat))
    {state' : BodyWalkState} (h : BodyInv libs (htmlSource message) state)
    (hok : walkTextBody libs message message.htmlBody.head? todo state = .ok state') :
    BodyInv libs (htmlSource message) state' := by
  induction todo generalizing state with
  | nil =>
      cases hok
      exact h
  | cons entry rest ih =>
      obtain ⟨partId, idx⟩ := entry
      -- a part that was visited, and the budget after it
      have hvisited {visited : BodyWalkState} (hinv : BodyInv libs (htmlSource message) visited)
          (hok : (if MAX_TOTAL_BODY_BYTES ≤ visited.totalBytes then
              Except.ok { visited with
                bodyTruncated := true
                warnings := visited.warnings ++ [warningAt .parseBodyTruncated
                  ("total=" ++ toString visited.totalBytes ++ " limit=" ++
                    toString MAX_TOTAL_BODY_BYTES) "body:aggregate"] }
            else ContentParse.walkTextBody libs message message.htmlBody.head? rest visited) =
              .ok state') : BodyInv libs (htmlSource message) state' := by
        split at hok
        · cases hok
          have htotal : clean "total=" = true := rfl
          have hlimit : clean " limit=" = true := rfl
          apply hinv.addWarning
          simp [htotal, hlimit]
        · exact ih hinv hok
      unfold ContentParse.walkTextBody at hok
      split at hok
      · exact ih h hok
      · rename_i part hpart
        rcases hbody : part.body with s | s | bytes | bytes | _ | children
        · rw [hbody] at hok
          exact hvisited (h.decodeTextPart part _ idx) hok
        · rw [hbody] at hok
          dsimp only at hok
          split at hok
          · rename_i hprimary
            rcases hhtml : ContentParse.sanitizeHtmlPart libs part (utf8Bytes s) state
              with e | visited
            · rw [hhtml] at hok
              cases hok
            · rw [hhtml] at hok
              have hsource := htmlSource_of_part hprimary hpart hbody
              exact hvisited (h.sanitizeHtmlPart hsource hhtml) hok
          · exact ih h hok
        all_goals
          rw [hbody] at hok
          exact ih h hok

theorem extractBodies_inv {message : Message} {bodies : BodyWalkState}
    (hok : extractBodies libs message = .ok bodies) : BodyInv libs (htmlSource message) bodies := by
  unfold extractBodies at hok
  split at hok
  · cases hok
  · split at hok
    · cases hok
    · have hstart : BodyInv libs (htmlSource message) {} := ⟨rfl, rfl, fun _ => rfl, nofun⟩
      rcases hwalk : walkTextBody libs message message.htmlBody.head? message.textBody.zipIdx {}
        with e | walked
      · simp only [hwalk] at hok
        cases hok
      · simp only [hwalk] at hok
        have hinv := hstart.walkTextBody _ hwalk
        change surfaceAlternativeHtml libs message message.htmlBody.head? walked = .ok bodies at hok
        unfold surfaceAlternativeHtml at hok
        split at hok
        · cases hok
          exact hinv
        · split at hok
          · rename_i part hpart
            obtain ⟨partId, hprimary, hpart⟩ := Option.bind_eq_some_iff.mp hpart
            split at hok
            · rename_i s hbody
              exact hinv.sanitizeHtmlPart (htmlSource_of_part hprimary hpart hbody) hok
            · cases hok
              exact hinv
          · cases hok
            exact hinv

/-- What a body extraction returns is clean if the surfaced HTML part is. -/
theorem extractBodies_clean {message : Message} {bodies : BodyWalkState}
    (hok : extractBodies libs message = .ok bodies) :
    clean (bodies.primaryText.getD "") = true ∧ bodies.alternates.all clean = true ∧
      (bodies.bodyHtml.toList.all clean && cleanWarnings bodies.warnings) =
        (htmlQuotes libs message bodies).all clean := by
  have hinv := extractBodies_inv hok
  refine ⟨?_, hinv.alternates, ?_⟩
  · have hprimary := hinv.primaryText
    rcases hold : bodies.primaryText with _ | text
    · rfl
    · rw [hold] at hprimary
      simpa using hprimary
  · unfold htmlQuotes
    rcases hhtml : bodies.bodyHtml with _ | html
    · simp [hinv.plain hhtml]
    · obtain ⟨bytes, charset, hsource, rfl, hwarnings⟩ := hinv.html html hhtml
      simp [hsource, hwarnings]

/-! ### Look-alike domains -/

theorem cleanWarnings_emitClassification (domain location : String) :
    cleanWarnings (emitClassification libs domain location) =
      (domainQuotes libs domain).all clean := by
  have hdomain : clean "domain=" = true := rfl
  have hunicode : clean ",unicode=" = true := rfl
  have hulabel : clean ",ulabel=" = true := rfl
  unfold emitClassification domainQuotes
  rcases classifyDomain libs domain with _ | ⟨ascii, unicode, _ | _, _ | _⟩
  · rfl
  all_goals simp [hdomain, hunicode, hulabel]

theorem cleanWarnings_audit (message : Message) (bodies : BodyWalkState) :
    cleanWarnings (audit libs message bodies) =
      ((auditedDomains libs message bodies).flatMap fun entry =>
        domainQuotes libs entry.1).all clean := by
  rw [audit, cleanWarnings_flatMap, List.all_flatMap]
  simp only [cleanWarnings_emitClassification]

end

/-! ## The result -/

/-- What the pipeline works on once the message is accepted. -/
structure Accepted (libs : ContentLibs) (raw : Bytes) (message : Message)
    (bodies : BodyWalkState) : Prop where
  parsed : libs.safeParse (scrubHeaderSmuggling libs raw).1 = .ok (some message)
  bodies : extractBodies libs message = .ok bodies

theorem parseMessageWithHeaders_ok {libs : ContentLibs} {raw : Bytes} {wanted : List String}
    {content : Content} {selected : List SelectedHeader}
    (h : parseMessageWithHeaders libs raw wanted = .ok (content, selected)) :
    ∃ message bodies, Accepted libs raw message bodies ∧
      resultClean content selected =
        (unfiltered libs message bodies (scrubHeaderSmuggling libs raw).1 wanted).all clean := by
  unfold parseMessageWithHeaders at h
  split at h
  · cases h
  · dsimp only at h
    split at h
    · cases h
    · cases h
    · rename_i message hparsed
      split at h
      · cases h
      · split at h
        · cases h
        · rename_i bodies hbodies
          cases h
          refine ⟨message, bodies, ⟨hparsed, hbodies⟩, ?_⟩
          obtain ⟨hmeta, hmeta'⟩ := extractMeta_clean libs message raw.length
          obtain ⟨htext, halternates, hhtml⟩ := extractBodies_clean hbodies
          have hselected := extractSelectedHeaders_clean libs message
            (scrubHeaderSmuggling libs raw).1 wanted
          have hstrings (truncated : Bool) : ({ (extractMeta libs message raw.length).1 with
              bodyTruncated := truncated }).strings.all clean = true := hmeta
          simp only [selectedTexts] at hselected
          simp only [resultClean, texts, unfiltered, List.all_append, List.all_cons, List.all_nil,
            cleanWarnings_append, hstrings, htext, halternates, hmeta', cleanWarnings_audit,
            cleanWarnings_scrubHeaderSmuggling, ← hhtml, ← hselected, Bool.and_true, Bool.true_and]
          ac_rfl

theorem Accepted.unique {libs : ContentLibs} {raw : Bytes} {message message' : Message}
    {bodies bodies' : BodyWalkState} (h : Accepted libs raw message bodies)
    (h' : Accepted libs raw message' bodies') : message = message' ∧ bodies = bodies' := by
  obtain rfl : message = message' := by
    have heq := h.parsed.symm.trans h'.parsed
    simpa using heq
  refine ⟨rfl, ?_⟩
  have heq := h.bodies.symm.trans h'.bodies
  simpa using heq

/-- **A result is clean if and only if what goes around the pipeline is**: every other
    string has been filtered, whatever the parsers make of the message. -/
theorem resultClean_iff_unfiltered_clean (libs : ContentLibs) (raw : Bytes) (wanted : List String)
    (content : Content) (selected : List SelectedHeader)
    (h : parseMessageWithHeaders libs raw wanted = .ok (content, selected)) :
    resultClean content selected = true ↔
      ∃ message bodies, Accepted libs raw message bodies ∧
        ∀ s ∈ unfiltered libs message bodies (scrubHeaderSmuggling libs raw).1 wanted,
          clean s = true := by
  obtain ⟨message, bodies, haccepted, hresult⟩ := parseMessageWithHeaders_ok h
  rw [hresult, List.all_eq_true]
  constructor
  · intro hclean
    exact ⟨message, bodies, haccepted, hclean⟩
  · rintro ⟨message', bodies', haccepted', hclean⟩
    obtain ⟨rfl, rfl⟩ := haccepted.unique haccepted'
    exact hclean

/-- UTF-8, as far as its one-byte and three-byte forms. -/
def decodeUtf8 : Bytes → List Char
  | b0 :: b1 :: b2 :: rest =>
    if 0xE0 ≤ b0 ∧ b0 < 0xF0 then
      Char.ofNat ((b0.toNat % 16 * 64 + b1.toNat % 64) * 64 + b2.toNat % 64) :: decodeUtf8 rest
    else
      Char.ofNat b0.toNat :: decodeUtf8 (b1 :: b2 :: rest)
  | b0 :: rest => Char.ofNat b0.toNat :: decodeUtf8 rest
  | [] => []

/-- Crates that do on one HTML message what the real ones do: `document` is its parse
    and `cleaned` what ammonia makes of it. -/
def htmlOnlyLibs (message : Message) (document : List Node) (cleaned : String) :
    ContentLibs where
  decode bytes _ := String.ofList (decodeUtf8 bytes)
  nfkc := id
  graphemes text := text.map fun c => [c]
  flatten_graphemes := flatten_singletons
  parseDocument _ := document
  ammoniaClean _ := cleaned
  links _ _ := []
  domainToAscii := some
  registrableRoot _ := none
  classifyInlineStyle _ := none
  safeParse _ := .ok (some message)
  domainToUnicode := id
  script _ := .latin
  printable c := !stripped c
  not_printable c hc := by rw [hc]; rfl

/-- `<p>a&#x200B;b</p>` as the only part of a message. -/
def entityMessage : Message where
  headers := [⟨"Content-Type", .contentType, 13, 39⟩]
  parts := [{ body := .html "<p>a&#x200B;b</p>"
              contentType := some ⟨"text", some "html", some "utf-8"⟩ }]
  textBody := [0]
  htmlBody := [0]

def entityBytes : Bytes :=
  utf8Bytes "Content-Type: text/html; charset=utf-8\r\n\r\n<p>a&#x200B;b</p>"

def entityLibs : ContentLibs :=
  htmlOnlyLibs entityMessage
    [.element "html" []
      [.element "head" [] [], .element "body" [] [.element "p" [] [.text "a\u200Bb"]]]]
    "<p>a\u200Bb</p>"

/-- A test on what a message is parsed to. -/
def parsesTo (libs : ContentLibs) (raw : Bytes) (test : Content → List SelectedHeader → Bool) :
    Bool :=
  match parseMessageWithHeaders libs raw [] with
  | .ok (content, selected) => test content selected
  | .error _ => false

theorem exists_of_parsesTo {libs : ContentLibs} {raw : Bytes}
    {test : Content → List SelectedHeader → Bool} (h : parsesTo libs raw test = true) :
    ∃ content selected, parseMessageWithHeaders libs raw [] = .ok (content, selected) ∧
      test content selected = true := by
  unfold parsesTo at h
  split at h
  · exact ⟨_, _, by assumption, h⟩
  · cases h

/-- A character reference brings a zero-width space into `body_html`. -/
theorem not_resultClean_entity :
    ∃ content selected,
      parseMessageWithHeaders entityLibs entityBytes [] = .ok (content, selected) ∧
      content.bodyText = "ab" ∧ content.bodyHtml = some "<p>a\u200Bb</p>" ∧
      resultClean content selected = false := by
  have htest : parsesTo entityLibs entityBytes (fun content selected =>
      content.bodyText == "ab" && content.bodyHtml == some "<p>a\u200Bb</p>" &&
        !resultClean content selected) = true := by decide +kernel
  obtain ⟨content, selected, hparse, htest⟩ := exists_of_parsesTo htest
  simp only [Bool.and_eq_true, beq_iff_eq, Bool.not_eq_true'] at htest
  exact ⟨content, selected, hparse, htest.1.1, htest.1.2, htest.2⟩

/-- On that message it is ammonia's output that is not clean. -/
theorem resultClean_iff_unfiltered_clean_entity :
    ∃ content selected,
      parseMessageWithHeaders entityLibs entityBytes [] = .ok (content, selected) ∧
      (resultClean content selected = true ↔
        ∃ message bodies, Accepted entityLibs entityBytes message bodies ∧
          ∀ s ∈ unfiltered entityLibs message bodies
              (scrubHeaderSmuggling entityLibs entityBytes).1 [],
            clean s = true) := by
  have htest : parsesTo entityLibs entityBytes (fun content _ =>
      content.bodyHtml == some "<p>a\u200Bb</p>") = true := by decide +kernel
  obtain ⟨content, selected, hparse, -⟩ := exists_of_parsesTo htest
  exact ⟨content, selected, hparse,
    resultClean_iff_unfiltered_clean entityLibs entityBytes [] content selected hparse⟩

end RustyImap.ContentParse
