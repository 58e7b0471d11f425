import RustyImap.HeaderInjection
import RustyImap.SandboxPaths

/-!
# Attachments and the byte budget of a message

`read_attachments` (`tools/compose/message_builder.rs`) over a sandbox that may change
at any time, `read_sandboxed_file` (`tools/retrieval/sandbox.rs`) with the check of a
file's length and the capped read apart, and what the message built from them weighs.
The budget counts the HTML as it was written; the message has it as ammonia writes it.
-/

namespace RustyImap.Compose

open RustyImap.UnicodeFilter RustyImap.HtmlBody RustyImap.ContentParse

/-! ## One read -/

/-- What a read meets: the length in the metadata, of a regular file in the sandbox, and
    the content when the file is opened and read, which may be another one by then. -/
structure Sighting where
  stat : Except RimapError Nat
  content : Except RimapError Bytes

/-- `read_sandboxed_file`. -/
def Sighting.readSandboxedFile (seen : Sighting) (maxBytes : Nat) : Except RimapError Bytes := do
  let len ← seen.stat
  if maxBytes < len then
    .error (invalidInput ("attachment too large (" ++ toString len ++ " bytes); max is " ++
      toString maxBytes))
  let content ← seen.content
  let buf := content.take (maxBytes + 1)
  if maxBytes < buf.length then
    .error (invalidInput ("attachment too large (>" ++ toString maxBytes ++ " bytes)"))
  return buf

/-- What the `k`-th read meets at a path. -/
abbrev SandboxRun := Nat → String → Sighting

/-- **What is read is the whole file, and it fits.**  One byte more than the cap is asked
    for, so a file that has grown is refused and not cut. -/
theorem Sighting.readSandboxedFile_eq_ok_iff {seen : Sighting} {maxBytes : Nat} {bytes : Bytes} :
    seen.readSandboxedFile maxBytes = .ok bytes ↔
      (∃ len, seen.stat = .ok len ∧ len ≤ maxBytes) ∧ seen.content = .ok bytes ∧
        bytes.length ≤ maxBytes := by
  unfold Sighting.readSandboxedFile
  constructor
  · intro h
    obtain ⟨len, hlen, h⟩ := bind_eq_ok h
    obtain ⟨hfits, h⟩ := guard_eq_ok h
    obtain ⟨content, hcontent, h⟩ := bind_eq_ok h
    obtain ⟨hread, h⟩ := guard_eq_ok h
    rw [List.length_take] at hread
    have hshort : content.length ≤ maxBytes := by omega
    have hwhole : content.take (maxBytes + 1) = bytes := Except.ok.inj h
    rw [List.take_of_length_le (by omega)] at hwhole
    rw [← hwhole]
    exact ⟨⟨len, hlen, Nat.not_lt.mp hfits⟩, hcontent, hshort⟩
  · rintro ⟨⟨len, hlen, hfits⟩, hcontent, hshort⟩
    have hwhole : bytes.take (maxBytes + 1) = bytes := List.take_of_length_le (by omega)
    rw [hlen, hcontent]
    simp only [bind, Except.bind, if_neg (Nat.not_lt.mpr hfits), pure, Except.pure, hwhole,
      if_neg (Nat.not_lt.mpr hshort)]

/-- What a read of a path meets: `before` at the check of the length, `after` when the file is
    opened. -/
def sightingOf (before after : Sandbox.Host) (root requested : FileTree.FsPath LogPruning.OsName) :
    Sighting where
  stat := do
    let (canonicalParent, name) ← Sandbox.checkContainment before root requested
    let dir ← Sandbox.openAmbientDir before (.ofPlace canonicalParent)
      "failed to open attachment directory"
    match before.node (dir ++ [name]) with
    | some (.file content) => .ok content.length
    | some (.symlink _) =>
        .error (invalidInput "attachment path is a symlink; refusing to follow")
    | some .dir => .error (invalidInput "attachment path is not a regular file")
    | none =>
        .error (invalidInput
          ("cannot stat attachment: " ++ before.osError (.ofPlace (dir ++ [name]))))
  content := do
    let (canonicalParent, name) ← Sandbox.checkContainment before root requested
    let dir ← Sandbox.openAmbientDir before (.ofPlace canonicalParent)
      "failed to open attachment directory"
    match after.node (dir ++ [name]) with
    | some (.file content) => .ok content
    | _ => .error (.internalSourced "failed to open attachment file")

/-- A file that does not change is read as `RustyImap.Sandbox` reads it. -/
theorem readSandboxedFile_sightingOf (host : Sandbox.Host)
    (root requested : FileTree.FsPath LogPruning.OsName) (maxBytes : Nat) :
    (sightingOf host host root requested).readSandboxedFile maxBytes =
      Sandbox.readPath host root requested maxBytes := by
  unfold Sighting.readSandboxedFile sightingOf Sandbox.readPath
  cases Sandbox.checkContainment host root requested with
  | error e => rfl
  | ok checked =>
      obtain ⟨parent, name⟩ := checked
      simp only [bind, Except.bind]
      cases Sandbox.openAmbientDir host (.ofPlace parent)
          "failed to open attachment directory" with
      | error e => rfl
      | ok dir =>
          unfold Sandbox.readLeaf
          simp only
          cases host.node (dir ++ [name]) with
          | none => rfl
          | some node =>
              cases node with
              | file content =>
                  by_cases hbig : maxBytes < content.length
                  · simp [hbig, invalidInput, Sandbox.invalidInput]
                  · simp [hbig, pure, Except.pure]
              | _ => rfl

/-! ## Reading every attachment -/

/-- The loop of `read_attachments` from the `k`-th attachment on. -/
def readEachFrom (libs : ComposeLibs) (sandbox : SandboxRun) : (k total : Nat) →
    List AttachmentInput → Except RimapError (List MimePart)
  | _, _, [] => .ok []
  | k, total, att :: rest => do
      let cap := min (MAX_TOTAL_MESSAGE_BYTES - total) MAX_ATTACHMENT_BYTES
      let bytes ← (sandbox k att.path).readSandboxedFile cap
      let reads ← readEachFrom libs sandbox (k + 1) (total + bytes.length) rest
      return ⟨attachmentContentType libs att bytes, attachmentFilename att, bytes⟩ :: reads

/-- The bytes of the text and of the HTML as it was written. -/
def writtenBytes (input : ComposeInput) : Nat :=
  utf8Len input.bodyText + ((presentHtml input).map utf8Len).getD 0

def readAttachmentsFrom (libs : ComposeLibs) (sandbox : SandboxRun) (input : ComposeInput) :
    Except RimapError (List MimePart) :=
  match input.attachments with
  | none => .ok []
  | some inputs => readEachFrom libs sandbox 0 (writtenBytes input) inputs

def buildMessageFrom (libs : ComposeLibs) (sandbox : SandboxRun) (fromAddr : String)
    (input : ComposeInput) (includeBcc : Bool) : Except RimapError BuiltMessage := do
  let builder ← threaded libs fromAddr input includeBcc
  let reads ← readAttachmentsFrom libs sandbox input
  assembleMessage libs builder input reads

/-! ## A sandbox at rest -/

/-- A sandbox that shows the same at every read, as `buildMessage` takes it. -/
def ComposeLibs.atRest (libs : ComposeLibs) (view : String → Sighting) : ComposeLibs :=
  { libs with readSandboxedFile := fun path maxBytes => (view path).readSandboxedFile maxBytes }

theorem readEachFrom_atRest (libs : ComposeLibs) (view : String → Sighting) (k total : Nat)
    (inputs : List AttachmentInput) :
    readEachFrom libs (fun _ => view) k total inputs =
      readEach (libs.atRest view) total inputs := by
  induction inputs generalizing k total with
  | nil => rfl
  | cons att rest ih =>
      unfold readEachFrom readEach
      simp only [ih]
      rfl

/-- **Over a sandbox at rest this is `buildMessage`.** -/
theorem buildMessageFrom_atRest (libs : ComposeLibs) (view : String → Sighting)
    (fromAddr : String) (input : ComposeInput) (includeBcc : Bool) :
    buildMessageFrom libs (fun _ => view) fromAddr input includeBcc =
      buildMessage (libs.atRest view) fromAddr input includeBcc := by
  have hreads : readAttachmentsFrom libs (fun _ => view) input =
      readAttachments (libs.atRest view) input := by
    unfold readAttachmentsFrom readAttachments
    cases input.attachments with
    | none => rfl
    | some inputs => exact readEachFrom_atRest libs view 0 _ inputs
  unfold buildMessageFrom buildMessage
  rw [hreads]
  rfl

/-! ## What is read -/

/-- The attachments are the files, in order: complete, within the cap, under their names. -/
def Attached (sandbox : SandboxRun) (inputs : List (AttachmentInput × Nat))
    (parts : List MimePart) : Prop :=
  List.Forall₂ (fun att part =>
    (sandbox att.2 att.1.path).content = .ok part.contents ∧
      part.contents.length ≤ MAX_ATTACHMENT_BYTES ∧ part.name = attachmentFilename att.1)
    inputs parts

def partBytes (parts : List MimePart) : Nat := (parts.map fun part => part.contents.length).sum

/-- The loop hands on whole files, and the budget is kept. -/
theorem readEachFrom_ok {libs : ComposeLibs} {sandbox : SandboxRun} {k total : Nat}
    {inputs : List AttachmentInput} {reads : List MimePart}
    (h : readEachFrom libs sandbox k total inputs = .ok reads)
    (htotal : total ≤ MAX_TOTAL_MESSAGE_BYTES) :
    Attached sandbox (inputs.zipIdx k) reads ∧
      total + partBytes reads ≤ MAX_TOTAL_MESSAGE_BYTES := by
  induction inputs generalizing k total reads with
  | nil =>
      obtain rfl := Except.ok.inj h
      exact ⟨.nil, htotal⟩
  | cons att rest ih =>
      obtain ⟨bytes, hbytes, h⟩ := bind_eq_ok h
      obtain ⟨tail, htail, h⟩ := bind_eq_ok h
      obtain rfl := Except.ok.inj h
      obtain ⟨-, hcontent, hcap⟩ := Sighting.readSandboxedFile_eq_ok_iff.mp hbytes
      have hfits := Nat.le_min.mp hcap
      obtain ⟨hattached, hrest⟩ := ih htail (by omega)
      refine ⟨.cons ⟨hcontent, hfits.2, rfl⟩ hattached, ?_⟩
      simp only [partBytes, List.map_cons, List.sum_cons] at hrest ⊢
      omega

theorem readAttachmentsFrom_ok {libs : ComposeLibs} {sandbox : SandboxRun} {input : ComposeInput}
    {reads : List MimePart} (h : readAttachmentsFrom libs sandbox input = .ok reads)
    (hwritten : writtenBytes input ≤ MAX_TOTAL_MESSAGE_BYTES) :
    Attached sandbox ((input.attachments.getD []).zipIdx) reads ∧
      writtenBytes input + partBytes reads ≤ MAX_TOTAL_MESSAGE_BYTES := by
  unfold readAttachmentsFrom at h
  cases hinputs : input.attachments with
  | none =>
      rw [hinputs] at h
      obtain rfl := Except.ok.inj h
      exact ⟨.nil, hwritten⟩
  | some inputs =>
      rw [hinputs] at h
      exact readEachFrom_ok h hwritten

theorem bodies_le_of_valid {input : ComposeInput} (hvalid : validateComposeInput input = .ok ()) :
    utf8Len input.bodyText ≤ MAX_BODY_BYTES ∧
      ∀ html, input.bodyHtml = some html → utf8Len html ≤ MAX_BODY_BYTES := by
  obtain ⟨recipients, cc, bcc, subject, bodyText, bodyHtml, attachments, uid, folder⟩ := input
  unfold validateComposeInput at hvalid
  iterate 3 obtain ⟨-, hvalid⟩ := guard_eq_ok hvalid
  obtain ⟨htext, hvalid⟩ := guard_eq_ok hvalid
  refine ⟨Nat.not_lt.mp htext, ?_⟩
  rintro html hsome
  obtain rfl : bodyHtml = some html := hsome
  cases attachments with
  | none => exact Nat.not_lt.mp (guard_eq_ok hvalid).1
  | some inputs => exact Nat.not_lt.mp (guard_eq_ok hvalid).1

/-- The checks leave the texts far below the budget. -/
theorem writtenBytes_le_of_valid {input : ComposeInput}
    (hvalid : validateComposeInput input = .ok ()) :
    writtenBytes input ≤ MAX_TOTAL_MESSAGE_BYTES := by
  obtain ⟨htext, hhtml⟩ := bodies_le_of_valid hvalid
  have hroom : MAX_BODY_BYTES + MAX_BODY_BYTES ≤ MAX_TOTAL_MESSAGE_BYTES := by decide
  have hpresent : ((presentHtml input).map utf8Len).getD 0 ≤ MAX_BODY_BYTES := by
    cases hsome : presentHtml input with
    | none => exact Nat.zero_le _
    | some html => exact hhtml html (Option.filter_eq_some_iff.mp hsome).1
  unfold writtenBytes
  omega

/-! ## What is built -/

/-- `sanitize_outbound_html`, the HTML of it. -/
def sanitizedHtml (libs : ComposeLibs) (html : String) : String :=
  libs.ammoniaClean (libs.decode (utf8Bytes html) (some "utf-8"))

theorem threaded_frame {libs : ComposeLibs} {fromAddr : String} {input : ComposeInput}
    {includeBcc : Bool} {builder : MessageBuilder}
    (h : threaded libs fromAddr input includeBcc = .ok builder) :
    builder.textBody = input.bodyText ∧ builder.htmlBody = none ∧ builder.attachments = none := by
  unfold threaded at h
  cases huid : input.inReplyToUid with
  | none =>
      rw [huid] at h
      obtain rfl := Except.ok.inj h
      exact ⟨rfl, rfl, rfl⟩
  | some uid =>
      rw [huid] at h
      obtain ⟨raw, -, h⟩ := bind_eq_ok h
      simp only at h
      split at h
      · obtain rfl := Except.ok.inj h
        exact ⟨rfl, rfl, rfl⟩
      · obtain rfl := Except.ok.inj h
        exact ⟨rfl, rfl, rfl⟩

theorem addHtml_ok {libs : ComposeLibs} {builder withHtml : MessageBuilder} {input : ComposeInput}
    {warnings : List SecurityWarning} (h : addHtml libs builder input = .ok (withHtml, warnings))
    (hnone : builder.htmlBody = none) :
    withHtml = { builder with htmlBody := (presentHtml input).map (sanitizedHtml libs) } := by
  unfold addHtml at h
  cases hhtml : presentHtml input with
  | none =>
      rw [hhtml] at h
      obtain rfl := congrArg Prod.fst (Except.ok.inj h)
      rw [Option.map_none, ← hnone]
  | some html =>
      rw [hhtml] at h
      simp only at h
      split at h
      · simp at h
      · next sanitized hsanitized =>
        obtain rfl := congrArg Prod.fst (Except.ok.inj h)
        have hbody : sanitized.bodyHtml = sanitizedHtml libs html :=
          (sanitizeHtml_ok hsanitized).2.1
        rw [hbody]
        rfl

/-- The builder that `build_message` writes, when it comes that far. -/
def outgoingFrom (libs : ComposeLibs) (sandbox : SandboxRun) (fromAddr : String)
    (input : ComposeInput) (includeBcc : Bool) : Except RimapError MessageBuilder := do
  let builder ← threaded libs fromAddr input includeBcc
  let reads ← readAttachmentsFrom libs sandbox input
  let (builder, _) ← assembled libs builder input reads
  return builder

def MessageBuilder.parts (builder : MessageBuilder) : List MimePart := builder.attachments.getD []

/-- The bytes of the text body, the HTML body and the attachments. -/
def MessageBuilder.bytes (builder : MessageBuilder) : Nat :=
  utf8Len builder.textBody + (builder.htmlBody.map utf8Len).getD 0 + partBytes builder.parts

theorem outgoingFrom_ok {libs : ComposeLibs} {sandbox : SandboxRun} {fromAddr : String}
    {input : ComposeInput} {includeBcc : Bool} {builder : MessageBuilder}
    (h : outgoingFrom libs sandbox fromAddr input includeBcc = .ok builder) :
    builder.textBody = input.bodyText ∧
      builder.htmlBody = (presentHtml input).map (sanitizedHtml libs) ∧
      readAttachmentsFrom libs sandbox input = .ok builder.parts := by
  obtain ⟨headers, hheaders, h⟩ := bind_eq_ok h
  obtain ⟨reads, hreads, h⟩ := bind_eq_ok h
  obtain ⟨⟨built, warnings⟩, hbuilt, h⟩ := bind_eq_ok h
  obtain rfl : built = builder := Except.ok.inj h
  obtain ⟨htext, hhtml, hattachments⟩ := threaded_frame hheaders
  obtain ⟨⟨withHtml, _⟩, hadded, hbuilt⟩ := bind_eq_ok hbuilt
  obtain rfl : addAttachments withHtml reads = built := congrArg Prod.fst (Except.ok.inj hbuilt)
  obtain rfl := addHtml_ok hadded hhtml
  refine ⟨htext, rfl, hreads.trans (congrArg Except.ok ?_)⟩
  exact (addAttachments_getD reads hattachments).symm

/-- What `build_message` returns is what it wrote, and the list of what it attached. -/
theorem buildMessageFrom_ok {libs : ComposeLibs} {sandbox : SandboxRun} {fromAddr : String}
    {input : ComposeInput} {includeBcc : Bool} {built : BuiltMessage}
    (h : buildMessageFrom libs sandbox fromAddr input includeBcc = .ok built) :
    ∃ builder, outgoingFrom libs sandbox fromAddr input includeBcc = .ok builder ∧
      libs.writeToVec builder = .ok built.raw ∧
      built.attachments = builder.parts.map fun part => ⟨part.name, part.contents.length⟩ := by
  obtain ⟨headers, hheaders, h⟩ := bind_eq_ok h
  obtain ⟨reads, hreads, h⟩ := bind_eq_ok h
  obtain ⟨⟨builder, warnings⟩, hbuilt, h⟩ := bind_eq_ok h
  have hout : outgoingFrom libs sandbox fromAddr input includeBcc = .ok builder := by
    unfold outgoingFrom
    rw [hheaders]
    simp only [bind, Except.bind, hreads, hbuilt]
    rfl
  have hparts := (outgoingFrom_ok hout).2.2
  obtain rfl : reads = builder.parts := Except.ok.inj (hreads.symm.trans hparts)
  simp only at h
  cases hraw : libs.writeToVec builder with
  | error e =>
      rw [hraw] at h
      simp at h
  | ok raw =>
      rw [hraw] at h
      obtain rfl := Except.ok.inj h
      exact ⟨builder, hout, hraw, rfl⟩

/-! ## What the sanitizer adds -/

/-- HTML as its markup and its text. -/
inductive HtmlPiece where
  | markup (s : String)
  | text (s : String)
deriving DecidableEq, Repr

def entity (c : Char) : List Char :=
  if c = '&' then "&amp;".toList
  else if c = '<' then "&lt;".toList
  else if c = '>' then "&gt;".toList
  else [c]

/-- The bytes that the entities add. -/
def entityGrowth (text : List Char) : Nat :=
  4 * text.count '&' + 3 * (text.count '<' + text.count '>')

def escapeText (s : String) : String := .ofList (s.toList.flatMap entity)

namespace HtmlPiece

def source : HtmlPiece → String
  | .markup s | .text s => s

/-- Markup as it stands, text with entities. -/
def escaped : HtmlPiece → String
  | .markup s => s
  | .text s => escapeText s

def growth : HtmlPiece → Nat
  | .markup _ => 0
  | .text s => entityGrowth s.toList

end HtmlPiece

def htmlOf (pieces : List HtmlPiece) : String := String.join (pieces.map HtmlPiece.source)

def escapedOf (pieces : List HtmlPiece) : String := String.join (pieces.map HtmlPiece.escaped)

theorem utf8Len_append (s t : String) : utf8Len (s ++ t) = utf8Len s + utf8Len t := by
  unfold utf8Len
  rw [String.toList_append, List.map_append, List.sum_append]

/-- Three characters are replaced; any other stands for itself and adds nothing. -/
theorem entity_cases (c : Char) :
    c = '&' ∨ c = '<' ∨ c = '>' ∨ entity c = [c] ∧ entityGrowth [c] = 0 := by
  by_cases hamp : c = '&'
  · exact .inl hamp
  by_cases hlt : c = '<'
  · exact .inr (.inl hlt)
  by_cases hgt : c = '>'
  · exact .inr (.inr (.inl hgt))
  refine .inr (.inr (.inr ⟨?_, ?_⟩))
  · rw [entity, if_neg hamp, if_neg hlt, if_neg hgt]
  · simp [entityGrowth, hamp, hlt, hgt]

theorem sum_utf8Size_entity (c : Char) :
    ((entity c).map Char.utf8Size).sum = c.utf8Size + entityGrowth [c] := by
  rcases entity_cases c with rfl | rfl | rfl | ⟨hself, hnone⟩
  · decide
  · decide
  · decide
  · rw [hself, hnone]
    rfl

theorem entityGrowth_cons (c : Char) (rest : List Char) :
    entityGrowth (c :: rest) = entityGrowth [c] + entityGrowth rest := by
  have hcons : ∀ d, (c :: rest).count d = [c].count d + rest.count d := by
    intro d
    rw [← List.count_append]
    rfl
  unfold entityGrowth
  rw [hcons, hcons, hcons]
  omega

theorem utf8Len_escapeText (s : String) :
    utf8Len (escapeText s) = utf8Len s + entityGrowth s.toList := by
  unfold utf8Len escapeText
  rw [String.toList_ofList]
  induction s.toList with
  | nil => rfl
  | cons c rest ih =>
      rw [List.flatMap_cons, List.map_append, List.sum_append, ih, List.map_cons, List.sum_cons,
        sum_utf8Size_entity, entityGrowth_cons c rest]
      omega

theorem utf8Len_escaped (piece : HtmlPiece) :
    utf8Len piece.escaped = utf8Len piece.source + piece.growth := by
  cases piece with
  | markup s => rfl
  | text s => exact utf8Len_escapeText s

theorem utf8Len_escapedOf (pieces : List HtmlPiece) :
    utf8Len (escapedOf pieces) = utf8Len (htmlOf pieces) + (pieces.map HtmlPiece.growth).sum := by
  unfold escapedOf htmlOf
  induction pieces with
  | nil => rfl
  | cons piece rest ih =>
      rw [List.map_cons, List.map_cons, List.map_cons, String.join_cons, String.join_cons,
        utf8Len_append, utf8Len_append, ih, utf8Len_escaped, List.sum_cons]
      omega

theorem entityGrowth_le (text : List Char) :
    entityGrowth text ≤ 4 * (text.map Char.utf8Size).sum := by
  induction text with
  | nil => exact Nat.le_refl _
  | cons c rest ih =>
      have hc : entityGrowth [c] ≤ 4 * c.utf8Size := by
        rcases entity_cases c with rfl | rfl | rfl | ⟨-, hnone⟩
        · decide
        · decide
        · decide
        · rw [hnone]
          exact Nat.zero_le _
      rw [entityGrowth_cons c rest, List.map_cons, List.sum_cons]
      omega

theorem growth_le (pieces : List HtmlPiece) :
    (pieces.map HtmlPiece.growth).sum ≤ 4 * utf8Len (htmlOf pieces) := by
  unfold htmlOf
  induction pieces with
  | nil => exact Nat.zero_le _
  | cons piece rest ih =>
      have hpiece : piece.growth ≤ 4 * utf8Len piece.source := by
        cases piece with
        | markup s => exact Nat.zero_le _
        | text s => exact entityGrowth_le s.toList
      rw [List.map_cons, List.map_cons, List.sum_cons, String.join_cons, utf8Len_append]
      omega

/-! ## The budget -/

/-- What the sanitizer adds to the HTML. -/
def htmlGrowth (libs : ComposeLibs) (input : ComposeInput) : Nat :=
  match presentHtml input with
  | none => 0
  | some html => utf8Len (sanitizedHtml libs html) - utf8Len html

def sightedBytes (seen : Sighting) : Nat :=
  match seen.content with
  | .ok content => content.length
  | .error _ => 0

/-- The bytes of the files, as the reads meet them. -/
def fileBytes (sandbox : SandboxRun) (input : ComposeInput) : Nat :=
  ((input.attachments.getD []).zipIdx.map fun att => sightedBytes (sandbox att.2 att.1.path)).sum

/-- What the texts as written and the files leave of the budget. -/
def budgetLeft (sandbox : SandboxRun) (input : ComposeInput) : Nat :=
  MAX_TOTAL_MESSAGE_BYTES - (writtenBytes input + fileBytes sandbox input)

def WithinBudget (builder : MessageBuilder) : Prop := builder.bytes ≤ MAX_TOTAL_MESSAGE_BYTES

theorem partBytes_of_attached {sandbox : SandboxRun} {inputs : List (AttachmentInput × Nat)}
    {parts : List MimePart} (h : Attached sandbox inputs parts) :
    partBytes parts = (inputs.map fun att => sightedBytes (sandbox att.2 att.1.path)).sum := by
  induction h with
  | nil => rfl
  | cons hpart _ ih =>
      simp only [partBytes, List.map_cons, List.sum_cons] at ih ⊢
      rw [ih, sightedBytes, hpart.1]

theorem withinBudget_iff {libs : ComposeLibs} {sandbox : SandboxRun} {fromAddr : String}
    {input : ComposeInput} {includeBcc : Bool} {builder : MessageBuilder}
    (hout : outgoingFrom libs sandbox fromAddr input includeBcc = .ok builder)
    (hattached : Attached sandbox ((input.attachments.getD []).zipIdx) builder.parts)
    (hkept : writtenBytes input + partBytes builder.parts ≤ MAX_TOTAL_MESSAGE_BYTES) :
    WithinBudget builder ↔ htmlGrowth libs input ≤ budgetLeft sandbox input := by
  obtain ⟨htext, hhtml, -⟩ := outgoingFrom_ok hout
  have hfiles : partBytes builder.parts = fileBytes sandbox input := partBytes_of_attached hattached
  rw [hfiles] at hkept
  unfold WithinBudget MessageBuilder.bytes htmlGrowth budgetLeft
  rw [htext, hhtml, hfiles]
  unfold writtenBytes at hkept ⊢
  cases hpresent : presentHtml input with
  | none =>
      rw [hpresent] at hkept
      simp only [Option.map_none, Option.getD_none, Nat.add_zero] at hkept ⊢
      omega
  | some html =>
      rw [hpresent] at hkept
      simp only [Option.map_some, Option.getD_some] at hkept ⊢
      omega

/-- With entities for the three characters and nothing else the growth is counted in the
    text of the HTML. -/
theorem htmlGrowth_of_entities {libs : ComposeLibs} {input : ComposeInput}
    {pieces : List HtmlPiece} (hhtml : presentHtml input = some (htmlOf pieces))
    (hescaped : sanitizedHtml libs (htmlOf pieces) = escapedOf pieces) :
    htmlGrowth libs input = (pieces.map HtmlPiece.growth).sum := by
  unfold htmlGrowth
  rw [hhtml]
  simp only
  rw [hescaped, utf8Len_escapedOf, Nat.add_sub_cancel_left]

/-- **A message that is built carries whole files in the order of the input, each within the
    cap, and reports them one by one.  It keeps to the budget when what the sanitizer adds to
    the HTML fits into what the texts as written and the files leave, and only then.** -/
theorem composed_budget_iff (libs : ComposeLibs) (sandbox : SandboxRun) (fromAddr : String)
    (input : ComposeInput) (includeBcc : Bool) (built : BuiltMessage)
    (hvalid : validateComposeInput input = .ok ())
    (h : buildMessageFrom libs sandbox fromAddr input includeBcc = .ok built) :
    ∃ builder, outgoingFrom libs sandbox fromAddr input includeBcc = .ok builder ∧
      libs.writeToVec builder = .ok built.raw ∧
      Attached sandbox ((input.attachments.getD []).zipIdx) builder.parts ∧
      built.attachments = (builder.parts.map fun part => ⟨part.name, part.contents.length⟩) ∧
      (WithinBudget builder ↔ htmlGrowth libs input ≤ budgetLeft sandbox input) ∧
      ∀ pieces, presentHtml input = some (htmlOf pieces) →
        sanitizedHtml libs (htmlOf pieces) = escapedOf pieces →
        (WithinBudget builder ↔
          (pieces.map HtmlPiece.growth).sum ≤ budgetLeft sandbox input) := by
  obtain ⟨builder, hout, hraw, hsummaries⟩ := buildMessageFrom_ok h
  have hreads := (outgoingFrom_ok hout).2.2
  obtain ⟨hattached, hkept⟩ := readAttachmentsFrom_ok hreads (writtenBytes_le_of_valid hvalid)
  have hbudget := withinBudget_iff hout hattached hkept
  refine ⟨builder, hout, hraw, hattached, hsummaries, hbudget, ?_⟩
  intro pieces hhtml hescaped
  rw [hbudget, htmlGrowth_of_entities hhtml hescaped]

def escapingLibs : ComposeLibs := { replyLibs {} with ammoniaClean := escapeText }

/-- A file that has grown since its length was looked at. -/
def grownSandbox : SandboxRun := fun _ _ => ⟨.ok 1, .ok [104, 105, 10]⟩

def noteCompose : ComposeInput :=
  { plainCompose with
    bodyHtml := some "you & me"
    attachments := some [⟨"/in/note.txt", none, none⟩] }

theorem composed_budget_grown_file :
    validateComposeInput noteCompose = .ok () ∧
      ∃ built, buildMessageFrom escapingLibs grownSandbox "me@example.com" noteCompose false =
          .ok built ∧
        ∃ builder, outgoingFrom escapingLibs grownSandbox "me@example.com" noteCompose false =
            .ok builder ∧
          escapingLibs.writeToVec builder = .ok built.raw ∧
          Attached grownSandbox ((noteCompose.attachments.getD []).zipIdx) builder.parts ∧
          built.attachments = (builder.parts.map fun part => ⟨part.name, part.contents.length⟩) ∧
          (WithinBudget builder ↔
            htmlGrowth escapingLibs noteCompose ≤ budgetLeft grownSandbox noteCompose) ∧
          ∀ pieces, presentHtml noteCompose = some (htmlOf pieces) →
            sanitizedHtml escapingLibs (htmlOf pieces) = escapedOf pieces →
            (WithinBudget builder ↔
              (pieces.map HtmlPiece.growth).sum ≤ budgetLeft grownSandbox noteCompose) :=
  ⟨by decide +kernel, _, rfl,
    composed_budget_iff escapingLibs grownSandbox "me@example.com" noteCompose false _
      (by decide +kernel) rfl⟩

/-- **Entities take a message at most four times the cap on the HTML beyond the budget.** -/
theorem bytes_le_of_entities {libs : ComposeLibs} {sandbox : SandboxRun} {fromAddr : String}
    {input : ComposeInput} {includeBcc : Bool} {builder : MessageBuilder}
    (hvalid : validateComposeInput input = .ok ())
    (hout : outgoingFrom libs sandbox fromAddr input includeBcc = .ok builder)
    {pieces : List HtmlPiece} (hhtml : presentHtml input = some (htmlOf pieces))
    (hescaped : sanitizedHtml libs (htmlOf pieces) = escapedOf pieces) :
    builder.bytes ≤ MAX_TOTAL_MESSAGE_BYTES + 4 * MAX_BODY_BYTES := by
  obtain ⟨htext, hbody, hreads⟩ := outgoingFrom_ok hout
  obtain ⟨-, hkept⟩ := readAttachmentsFrom_ok hreads (writtenBytes_le_of_valid hvalid)
  have hcap := (bodies_le_of_valid hvalid).2 _ (Option.filter_eq_some_iff.mp hhtml).1
  have hgrowth := growth_le pieces
  unfold writtenBytes at hkept
  unfold MessageBuilder.bytes
  rw [htext, hbody, hhtml, Option.map_some, Option.map_some, Option.getD_some, hescaped,
    utf8Len_escapedOf]
  rw [hhtml, Option.map_some, Option.getD_some] at hkept
  omega

/-! ## A message beyond the budget -/

/-- Three files that fill what one byte of HTML leaves of the budget. -/
def fullSandbox : SandboxRun := fun k _ =>
  let n := if k = 2 then 5 * 1048576 - 1 else 10 * 1048576
  ⟨.ok n, .ok (List.replicate n 0)⟩

def fullCompose : ComposeInput :=
  { plainCompose with
    bodyText := ""
    bodyHtml := some "&"
    attachments := some [⟨"/in/a", none, none⟩, ⟨"/in/b", none, none⟩, ⟨"/in/c", none, none⟩] }

theorem readEachFrom_cons {libs : ComposeLibs} {sandbox : SandboxRun} {k total : Nat}
    {att : AttachmentInput} {rest : List AttachmentInput} {n : Nat} {reads : List MimePart}
    (hseen : sandbox k att.path = ⟨.ok n, .ok (List.replicate n 0)⟩)
    (hfits : n ≤ min (MAX_TOTAL_MESSAGE_BYTES - total) MAX_ATTACHMENT_BYTES)
    (hrest : readEachFrom libs sandbox (k + 1) (total + n) rest = .ok reads) :
    readEachFrom libs sandbox k total (att :: rest) =
      .ok (⟨attachmentContentType libs att (List.replicate n 0), attachmentFilename att,
        List.replicate n 0⟩ :: reads) := by
  have hread : (sandbox k att.path).readSandboxedFile
      (min (MAX_TOTAL_MESSAGE_BYTES - total) MAX_ATTACHMENT_BYTES) =
      .ok (List.replicate n 0) := by
    rw [Sighting.readSandboxedFile_eq_ok_iff, hseen, List.length_replicate]
    exact ⟨⟨n, rfl, hfits⟩, rfl, hfits⟩
  unfold readEachFrom
  simp only [hread, bind, Except.bind, List.length_replicate, hrest]
  rfl

theorem readAttachmentsFrom_full :
    ∃ reads, readAttachmentsFrom escapingLibs fullSandbox fullCompose = .ok reads ∧
      partBytes reads = MAX_TOTAL_MESSAGE_BYTES - 1 := by
  have hwritten : writtenBytes fullCompose = 1 := by decide
  have hthird := @readEachFrom_cons escapingLibs fullSandbox 2 20971521 ⟨"/in/c", none, none⟩ []
    5242879 [] rfl (by decide) rfl
  have hsecond := @readEachFrom_cons escapingLibs fullSandbox 1 10485761 ⟨"/in/b", none, none⟩ _
    10485760 _ rfl (by decide) hthird
  have hfirst := @readEachFrom_cons escapingLibs fullSandbox 0 1 ⟨"/in/a", none, none⟩ _
    10485760 _ rfl (by decide) hsecond
  rw [← hwritten] at hfirst
  refine ⟨_, hfirst, ?_⟩
  simp only [partBytes, List.map_cons, List.map_nil, List.length_replicate]
  decide

/-- One `&` becomes five bytes after the budget has been used up. -/
theorem composed_over_budget :
    ¬∀ (libs : ComposeLibs) (sandbox : SandboxRun) (fromAddr : String) (input : ComposeInput)
      (includeBcc : Bool) (built : BuiltMessage) (builder : MessageBuilder)
      (pieces : List HtmlPiece),
      validateComposeInput input = .ok () →
      presentHtml input = some (htmlOf pieces) →
      sanitizedHtml libs (htmlOf pieces) = escapedOf pieces →
      buildMessageFrom libs sandbox fromAddr input includeBcc = .ok built →
      outgoingFrom libs sandbox fromAddr input includeBcc = .ok builder →
      WithinBudget builder := by
  intro h
  obtain ⟨reads, hreads, hbytes⟩ := readAttachmentsFrom_full
  obtain ⟨built, hbuilt⟩ :
      ∃ built, buildMessageFrom escapingLibs fullSandbox "me@example.com" fullCompose false =
        .ok built := by
    unfold buildMessageFrom
    rw [hreads]
    exact ⟨_, rfl⟩
  obtain ⟨builder, hout, -⟩ := buildMessageFrom_ok hbuilt
  obtain ⟨htext, hhtml, hparts⟩ := outgoingFrom_ok hout
  obtain rfl : reads = builder.parts := Except.ok.inj (hreads.symm.trans hparts)
  have hwithin := h escapingLibs fullSandbox "me@example.com" fullCompose false built builder
    [.text "&"] (by decide +kernel) (by decide) (by decide +kernel) hbuilt hout
  have hentity : sanitizedHtml escapingLibs "&" = "&amp;" := by decide +kernel
  have hpresent : presentHtml fullCompose = some "&" := by decide
  rw [WithinBudget, MessageBuilder.bytes, htext, hhtml, hpresent, Option.map_some, hentity,
    hbytes] at hwithin
  revert hwithin
  decide

end RustyImap.Compose
