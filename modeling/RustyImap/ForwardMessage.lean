import RustyImap.MessageBuilder

/-!
# Building a forwarded message

`tools/compose/forward.rs` with its part of `tools/compose/message_builder.rs`: the
checks of a forward input, the subject that is taken over from the source message,
and the `message/rfc822` wrapper around it.
-/

namespace RustyImap.Compose

open RustyImap.UnicodeFilter RustyImap.HtmlBody RustyImap.ContentParse

def MAX_FORWARD_ORIGINAL_BYTES : Nat := 25 * 1048576

structure ForwardInput where
  folder : String
  uid : NonZeroU32
  recipients : List AddressInput     -- `to`
  cc : Option (List AddressInput)
  bcc : Option (List AddressInput)
  comment : Option String
deriving DecidableEq, Repr

/-! ## Checks -/

def validateRecipientSet (recipients : List AddressInput) (cc bcc : Option (List AddressInput)) :
    Except RimapError Unit := do
  if recipients.isEmpty then
    .error (invalidInput "at least one To recipient is required")
  let total := recipients.length + (cc.map List.length).getD 0 + (bcc.map List.length).getD 0
  if MAX_RECIPIENTS < total then
    .error (invalidInput ("too many recipients (" ++ toString total ++ "); max is " ++
      toString MAX_RECIPIENTS))
  validateAddresses "To" recipients
  validateAddresses "CC" (cc.getD [])
  validateAddresses "BCC" (bcc.getD [])

/-- A missing comment is an empty body. -/
def validateComment : Option String → Except RimapError String
  | none => .ok ""
  | some comment =>
      if Compose.MAX_BODY_BYTES < utf8Len comment then
        .error (invalidInput ("comment too large (" ++ toString (utf8Len comment) ++
          " bytes); max is " ++ toString Compose.MAX_BODY_BYTES))
      else if comment.toList.any fun c => c.toNat == 0 then
        .error (invalidInput "comment contains a NUL byte")
      else .ok comment

/-! ## The source message -/

/-- `char::is_control`: the category Cc. -/
def isControlChar (c : Char) : Bool :=
  c.toNat ≤ 0x1F || (0x7F ≤ c.toNat && c.toNat ≤ 0x9F)

/-- The longest start that fits in so many bytes: the cut at a char boundary. -/
def fittingChars : Nat → List Char → List Char
  | _, [] => []
  | room, c :: rest => if c.utf8Size ≤ room then c :: fittingChars (room - c.utf8Size) rest else []

def forwardedSubject (original : Option String) : String :=
  let cleaned := trim ((original.getD "").toList.filter fun c => !isControlChar c)
  let subject := if cleaned.isEmpty then "Fwd:" else "Fwd: " ++ String.ofList cleaned
  if utf8Len subject ≤ MAX_SUBJECT_LEN then subject
  else .ofList (fittingChars MAX_SUBJECT_LEN subject.toList)

/-- `extract_subject`. -/
def extractSubject (libs : ContentLibs) (raw : Bytes) : Option String :=
  match libs.safeParse raw with
  | .ok (some parsed) => parsed.subject
  | .ok none | .error () => none

def extractMessageId (libs : ContentLibs) (raw : Bytes) : Option String :=
  match libs.safeParse raw with
  | .ok (some parsed) => parsed.messageId
  | .ok none | .error () => none

/-! ## The wrapper -/

/-- The builder that `build_forward_message` writes; blind recipients are in the
    envelope only. -/
def forwardBuilder (libs : ComposeLibs) (fromAddr : String) (recipients : List AddressInput)
    (cc : Option (List AddressInput)) (subject commentBody : String) (originalRaw : Bytes)
    (threading : ThreadingHeaders) : MessageBuilder :=
  let builder : MessageBuilder :=
    { sender := fromAddr
      recipients
      cc := nonempty cc
      bcc := none
      subject
      textBody := commentBody
      messageId := libs.generateMessageId fromAddr }
  let builder :=
    match threading.messageId.filter fun id => !id.isEmpty with
    | some origId =>
        { builder with
          inReplyTo := some origId
          references := capReferences (threading.references ++ [origId]) }
    | none => builder
  addAttachments builder [⟨"message/rfc822", "forwarded.eml", originalRaw⟩]

def buildForwardMessage (libs : ComposeLibs) (fromAddr : String) (recipients : List AddressInput)
    (cc : Option (List AddressInput)) (subject commentBody : String) (originalRaw : Bytes)
    (threading : ThreadingHeaders) : Except RimapError Bytes :=
  match libs.writeToVec
      (forwardBuilder libs fromAddr recipients cc subject commentBody originalRaw threading) with
  | .ok raw => .ok raw
  | .error () => .error (.internalSourced "failed to build forward message")

/-! ## From the input to the wrapper -/

/-- The checks on the input alone, which end with the body. -/
def validateForwardInput (input : ForwardInput) : Except RimapError String := do
  validateFolderInput "folder" input.folder
  validateRecipientSet input.recipients input.cc input.bcc
  validateComment input.comment

/-- The source message is checked once more: the limit of the fetch may be looser. -/
def checkOriginalSize (original : Bytes) : Except RimapError Unit :=
  if MAX_FORWARD_ORIGINAL_BYTES < original.length then
    .error (invalidInput ("source message too large to forward (" ++ toString original.length ++
      " bytes); max is " ++ toString MAX_FORWARD_ORIGINAL_BYTES))
  else .ok ()

/-- The builder for a fetched source message. -/
def forwardOf (libs : ComposeLibs) (fromAddr : String) (input : ForwardInput) (commentBody : String)
    (original : Bytes) : MessageBuilder :=
  forwardBuilder libs fromAddr input.recipients input.cc
    (forwardedSubject (extractSubject libs.toContentLibs original)) commentBody original
    (extractThreadingHeaders libs.toContentLibs original)

end RustyImap.Compose
