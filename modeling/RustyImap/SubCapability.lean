import RustyImap.MessageBuilder

/-!
# The sub-capability gate and what the handlers do

`refine_tool_name` decides on the raw JSON which of the three gated behaviours a
call asks for, before the arguments are decoded; the handlers
(`tools/retrieval/search.rs`, `tools/retrieval/fetch_message.rs`,
`tools/compose/create_draft.rs`) decide on the decoded input what they do.  For
each of the three, both are computed from the same field: a decoded optional
field is what a lookup in the JSON finds.
-/

namespace RustyImap.SubCapability

open RustyImap.ImapOps RustyImap.UnicodeFilter RustyImap.HtmlBody RustyImap.ContentParse
  RustyImap.Compose

/-! ## `search` -/

structure StructuredQuery (Date : Type) where
  sender : Option String
  recipient : Option String
  cc : Option String
  bcc : Option String
  subject : Option String
  body : Option String
  text : Option String
  headers : Option (List HeaderInput)
  larger : Option Nat
  smaller : Option Nat
  since : Option Date
  before : Option Date
  sentSince : Option Date
  sentBefore : Option Date
  seen : Option Bool
  answered : Option Bool
  flagged : Option Bool
  draft : Option Bool
  hasAttachment : Bool

inductive SearchQuery (Date : Type) where
  | raw (query : String)
  | structured (query : StructuredQuery Date)

/-- What the handler asks the mailbox for. -/
inductive SearchRequest (Date : Type) where
  | thread (target : NonZeroU32)
  | query (query : SearchQuery Date)

def MAX_HEADERS : Nat := 32

def requireNonEmpty (field : String) : Option String → Except RimapError (Option String)
  | none => .ok none
  | some s =>
      if (trim s.toList).isEmpty then
        .error (invalidInput (field ++ " must not be empty or whitespace-only"))
      else .ok (some s)

def checkHeaders : List HeaderInput → Except RimapError Unit
  | [] => .ok ()
  | h :: rest =>
      if (trim h.name.toList).isEmpty then
        .error (invalidInput "headers[].name must not be empty or whitespace-only")
      else if (trim h.value.toList).isEmpty then
        .error (invalidInput "headers[].value must not be empty or whitespace-only")
      else checkHeaders rest

def convertHeaders : Option (List HeaderInput) → Except RimapError (Option (List HeaderInput))
  | none => .ok none
  | some v =>
      if v.isEmpty then .ok none
      else if MAX_HEADERS < v.length then
        .error (invalidInput ("headers array exceeds maximum of " ++ toString MAX_HEADERS ++
          " entries"))
      else do
        checkHeaders v
        return some v

section

-- the dates of the `time` crate: what it parses an ISO date to, or its complaint
variable {Date : Type} (timeParse : String → Except String Date)

def parseIsoDate : Option String → Except RimapError (Option Date)
  | none => .ok none
  | some s =>
      match timeParse s with
      | .ok d => .ok (some d)
      | .error e => .error (invalidInput ("invalid date '" ++ s ++ "': " ++ e))

def buildQuery (input : SearchInput) : Except RimapError (SearchQuery Date) :=
  match input.advancedQuery with
  | some raw =>
      if raw.toList.any fun c => c == '\r' || c == '\n' || c.toNat == 0 then
        .error (invalidInput "advanced_query contains forbidden control bytes")
      else .ok (.raw raw)
  | none => do
      let cc ← requireNonEmpty "cc" input.cc
      let bcc ← requireNonEmpty "bcc" input.bcc
      let body ← requireNonEmpty "body" input.body
      let text ← requireNonEmpty "text" input.text
      let headers ← convertHeaders input.headers
      let since ← parseIsoDate timeParse input.since
      let before ← parseIsoDate timeParse input.before
      let sentSince ← parseIsoDate timeParse input.sentSince
      let sentBefore ← parseIsoDate timeParse input.sentBefore
      return .structured {
        sender := input.sender
        recipient := input.recipient
        cc, bcc
        subject := input.subject
        body, text, headers
        larger := input.larger
        smaller := input.smaller
        since, before, sentSince, sentBefore
        seen := input.seen
        answered := input.answered
        flagged := input.flagged
        draft := input.draft
        hasAttachment := input.hasAttachment.getD false }

/-- `search::handle` up to the mailbox. -/
def searchRequest (input : SearchInput) : Except RimapError (SearchRequest Date) := do
  validateFolderInput "folder" input.folder
  match input.threadOfUid with
  | some target =>
      if input.advancedQuery.isSome then
        .error (invalidInput "thread_of_uid cannot be combined with advanced_query")
      else .ok (.thread target)
  | none => return .query (← buildQuery timeParse input)

end

/-- The input has a raw query, a body, text or bcc term, or a header term. -/
def usesContentOracle (input : SearchInput) : Bool :=
  input.advancedQuery.isSome || input.body.isSome || input.text.isSome || input.bcc.isSome ||
    !(input.headers.getD []).isEmpty

def SearchQuery.scansContent {Date : Type} : SearchQuery Date → Bool
  | .raw _ => true
  | .structured q => q.body.isSome || q.text.isSome || q.bcc.isSome || q.headers.isSome

def SearchRequest.scansContent {Date : Type} : SearchRequest Date → Bool
  | .thread _ => false
  | .query q => q.scansContent

theorem requireNonEmpty_eq_ok {field : String} {value o : Option String}
    (h : requireNonEmpty field value = .ok o) : o = value := by
  unfold requireNonEmpty at h
  split at h
  · exact (Except.ok.inj h).symm
  · split at h
    · cases h
    · exact (Except.ok.inj h).symm

theorem convertHeaders_eq_ok {value o : Option (List HeaderInput)}
    (h : convertHeaders value = .ok o) : o.isSome = !(value.getD []).isEmpty := by
  unfold convertHeaders at h
  split at h
  · rw [← Except.ok.inj h]
    rfl
  · rename_i v
    split at h
    · rename_i hempty
      rw [← Except.ok.inj h, Option.getD_some, hempty]
      rfl
    · rename_i hempty
      split at h
      · cases h
      · obtain ⟨u, -, hret⟩ := bind_eq_ok h
        rw [← Except.ok.inj hret, Option.getD_some, Bool.eq_false_iff.mpr hempty]
        rfl

/-- A query that is built scans content exactly when the input asks for it. -/
theorem buildQuery_scansContent {Date : Type} {timeParse : String → Except String Date}
    {input : SearchInput} {query : SearchQuery Date} (h : buildQuery timeParse input = .ok query) :
    query.scansContent = usesContentOracle input := by
  unfold buildQuery at h
  split at h
  · rename_i raw hraw
    split at h
    · cases h
    · rw [← Except.ok.inj h, usesContentOracle, hraw]
      rfl
  · rename_i hraw
    obtain ⟨cc, -, h⟩ := bind_eq_ok h
    obtain ⟨bcc, hbcc, h⟩ := bind_eq_ok h
    obtain ⟨body, hbody, h⟩ := bind_eq_ok h
    obtain ⟨text, htext, h⟩ := bind_eq_ok h
    obtain ⟨headers, hheaders, h⟩ := bind_eq_ok h
    obtain ⟨since, -, h⟩ := bind_eq_ok h
    obtain ⟨before, -, h⟩ := bind_eq_ok h
    obtain ⟨sentSince, -, h⟩ := bind_eq_ok h
    obtain ⟨sentBefore, -, h⟩ := bind_eq_ok h
    have hheaders := convertHeaders_eq_ok hheaders
    rw [← Except.ok.inj h, usesContentOracle, hraw]
    simp only [SearchQuery.scansContent, requireNonEmpty_eq_ok hbody, requireNonEmpty_eq_ok htext,
      requireNonEmpty_eq_ok hbcc, hheaders, Option.isSome_none, Bool.false_or]

/-- The thread walk compares nothing that the caller chose; any other request does
    what the input asks for. -/
theorem searchRequest_scansContent {Date : Type} {timeParse : String → Except String Date}
    {input : SearchInput} {request : SearchRequest Date}
    (h : searchRequest timeParse input = .ok request) :
    request.scansContent = (input.threadOfUid.isNone && usesContentOracle input) := by
  obtain ⟨u, -, h⟩ := bind_eq_ok h
  split at h
  · rename_i target htarget
    split at h
    · cases h
    · rw [← Except.ok.inj h, htarget]
      rfl
  · rename_i hthread
    obtain ⟨query, hquery, h⟩ := bind_eq_ok h
    rw [← Except.ok.inj h, hthread]
    exact buildQuery_scansContent hquery

/-! ## `fetch_message` -/

def MAX_INCLUDE_HEADERS : Nat := 16

/-- The loop of `validate_header_name`. -/
def isHeaderName (name : String) : Bool :=
  name.toList.all fun c => 33 ≤ c.toNat && c.toNat ≤ 126 && c != ':'

/-- The names in their first spelling, `seen` being those already taken. -/
def dedupNames (libs : ContentLibs) : (seen : List String) → List String →
    Except RimapError (List String)
  | _, [] => .ok []
  | seen, name :: rest =>
      let lower := String.ofList (name.toList.map toAsciiLower)
      if name.isEmpty then
        .error (invalidInput "include_headers: header name must not be empty")
      else if !isHeaderName name then
        .error (invalidInput ("include_headers: invalid header name " ++ debugStr libs name ++
          " (RFC 5322 field names are printable ASCII without ':' or spaces)"))
      else if seen.contains lower then dedupNames libs seen rest
      else do
        let out ← dedupNames libs (lower :: seen) rest
        return name :: out

def validateIncludeHeaders (libs : ContentLibs) (names : List String) :
    Except RimapError (List String) :=
  if MAX_INCLUDE_HEADERS < names.length then
    .error (invalidInput ("include_headers: at most " ++ toString MAX_INCLUDE_HEADERS ++
      " names allowed, got " ++ toString names.length))
  else dedupNames libs [] names

def classifyContentError : ContentError → RimapError
  | .limitExceeded kind limit => .attachmentTooLarge kind limit
  | e => invalidInput (Compose.ContentError.toString e)

/-- What the handler has before it composes its answer. -/
structure Fetched where
  raw : Bytes
  content : Content
  selected : List SelectedHeader

/-- `fetch_message::handle` up to the parsed message. -/
def fetchContent (libs : ComposeLibs) (input : FetchMessageInput) : Except RimapError Fetched := do
  validateFolderInput "folder" input.folder
  let wanted ← validateIncludeHeaders libs.toContentLibs (input.includeHeaders.getD [])
  let raw ← libs.fetchBody input.folder input.uid
  match parseMessageWithHeaders libs.toContentLibs raw wanted with
  | .error e => .error (classifyContentError e)
  | .ok (content, selected) => return ⟨raw, content, selected⟩

structure FetchMessageResponse where
  folder : String
  uid : NonZeroU32
  messageId : Option String
  size : Nat
  truncated : Bool
  bodyText : String
  bodyHtml : Option String
  subject : Option String
  sender : Option String
  recipients : List String
  cc : List String
  replyTo : Option String
  attachments : List AttachmentMeta
  headers : Option (List SelectedHeader)
  securityWarnings : List SecurityWarning

/-- A body cut to `max_body_bytes`, and whether that took anything off. -/
def cutBody (libs : UnicodeLibs) (maxBytes : Option Nat) (body : String) : String × Bool :=
  match maxBytes with
  | some max =>
      if max < utf8Len body then (.ofList (truncateGraphemes libs body.toList max), true)
      else (body, false)
  | none => (body, false)

/-- The answer of `fetch_message::handle`. -/
def respond (libs : ComposeLibs) (input : FetchMessageInput) (fetched : Fetched) :
    FetchMessageResponse :=
  let includeHtml := input.includeHtml.getD false
  let html := if includeHtml then fetched.content.bodyHtml else none
  let cutText := cutBody libs.toUnicodeLibs input.maxBodyBytes fetched.content.bodyText
  let cutHtml := html.map (cutBody libs.toUnicodeLibs input.maxBodyBytes)
  { folder := input.folder
    uid := input.uid
    messageId := fetched.content.metadata.messageId
    size := fetched.raw.length
    truncated := fetched.content.metadata.bodyTruncated || cutText.2 ||
      (cutHtml.map Prod.snd).getD false
    bodyText := cutText.1
    bodyHtml := cutHtml.map Prod.fst
    subject := fetched.content.metadata.subject
    sender := fetched.content.metadata.sender
    recipients := fetched.content.metadata.recipients
    cc := fetched.content.metadata.cc
    replyTo := fetched.content.metadata.replyTo
    attachments := fetched.content.metadata.attachments
    headers := if input.includeHeaders.isSome then some fetched.selected else none
    securityWarnings := fetched.content.securityWarnings }

def fetchMessage (libs : ComposeLibs) (input : FetchMessageInput) :
    Except RimapError FetchMessageResponse :=
  (fetchContent libs input).map (respond libs input)

theorem fetchMessage_eq_ok {libs : ComposeLibs} {input : FetchMessageInput}
    {response : FetchMessageResponse} (h : fetchMessage libs input = .ok response) :
    ∃ fetched, fetchContent libs input = .ok fetched ∧ respond libs input fetched = response := by
  unfold fetchMessage at h
  rcases hfetch : fetchContent libs input with e | fetched
  · rw [hfetch] at h
    cases h
  · rw [hfetch] at h
    exact ⟨fetched, rfl, Except.ok.inj h⟩

/-- HTML is in the answer exactly when it was asked for and the message has it. -/
theorem respond_bodyHtml_isSome (libs : ComposeLibs) (input : FetchMessageInput)
    (fetched : Fetched) :
    (respond libs input fetched).bodyHtml.isSome =
      (input.includeHtml == some true && fetched.content.bodyHtml.isSome) := by
  have hflag : input.includeHtml.getD false = (input.includeHtml == some true) := by
    rcases input.includeHtml with _ | _ | _ <;> rfl
  simp only [respond, hflag, Option.isSome_map]
  split
  · rename_i h
    rw [h, Bool.true_and]
  · rename_i h
    rw [Bool.eq_false_iff.mpr h, Bool.false_and, Option.isSome_none]

/-! ## `create_draft` -/

/-- A part of type `text/html`: the HTML alternative or an attachment. -/
def emitsHtmlPart (builder : MessageBuilder) : Bool :=
  builder.htmlBody.isSome ||
    (builder.attachments.getD []).any fun part => eqIgnoreAsciiCase part.contentType "text/html"

theorem applyThreadingHeaders_htmlBody {libs : ComposeLibs} {builder builder' : MessageBuilder}
    {replyUid : NonZeroU32} {folder : Option String}
    (h : applyThreadingHeaders libs builder replyUid folder = .ok builder') :
    builder'.htmlBody = builder.htmlBody := by
  obtain ⟨raw, -, h⟩ := bind_eq_ok h
  simp only at h
  split at h
  · rw [← Except.ok.inj h]
  · rw [← Except.ok.inj h]

theorem threaded_htmlBody {libs : ComposeLibs} {fromAddr : String} {input : ComposeInput}
    {includeBcc : Bool} {builder : MessageBuilder}
    (h : threaded libs fromAddr input includeBcc = .ok builder) : builder.htmlBody = none := by
  unfold threaded at h
  split at h
  · rw [← Except.ok.inj h]
    rfl
  · exact applyThreadingHeaders_htmlBody h

theorem addHtml_htmlBody {libs : ComposeLibs} {builder builder' : MessageBuilder}
    {input : ComposeInput} {warnings : List SecurityWarning} (hnone : builder.htmlBody = none)
    (h : addHtml libs builder input = .ok (builder', warnings)) :
    builder'.htmlBody.isSome = (presentHtml input).isSome := by
  unfold addHtml at h
  split at h
  · rename_i hpresent
    obtain ⟨rfl, -⟩ := Prod.mk.inj (Except.ok.inj h)
    rw [hnone, hpresent]
  · rename_i html hpresent
    split at h
    · cases h
    · obtain ⟨rfl, -⟩ := Prod.mk.inj (Except.ok.inj h)
      rw [hpresent]
      rfl

/-- The HTML alternative is there exactly when the input has HTML that counts. -/
theorem outgoing_htmlBody {libs : ComposeLibs} {fromAddr : String} {input : ComposeInput}
    {includeBcc : Bool} {builder : MessageBuilder}
    (h : outgoing libs fromAddr input includeBcc = .ok builder) :
    builder.htmlBody.isSome = (presentHtml input).isSome := by
  obtain ⟨headers, hheaders, h⟩ := bind_eq_ok h
  obtain ⟨reads, -, h⟩ := bind_eq_ok h
  obtain ⟨⟨built, warnings⟩, hbuilt, h⟩ := bind_eq_ok h
  obtain ⟨⟨withHtml, warnings'⟩, hhtml, hbuilt⟩ := bind_eq_ok hbuilt
  have hsame : built.htmlBody = withHtml.htmlBody :=
    (congrArg (fun entry => entry.1.htmlBody) (Except.ok.inj hbuilt)).symm
  rw [← Except.ok.inj h, hsame]
  exact addHtml_htmlBody (threaded_htmlBody hheaders) hhtml

/-- `create_draft::handle` up to the APPEND: the builder that is written. -/
def draftBuilder (libs : ComposeLibs) (fromAddr : String) (input : ComposeInput) :
    Except RimapError MessageBuilder := do
  validateComposeInput input
  outgoing libs fromAddr input true

/-- `create_draft::handle` up to the APPEND: the message that is appended. -/
def createDraft (libs : ComposeLibs) (fromAddr : String) (input : ComposeInput) :
    Except RimapError BuiltMessage := do
  validateComposeInput input
  buildMessage libs fromAddr input true

/-- What `build_message` returns is that builder, written. -/
theorem buildMessage_eq_ok {libs : ComposeLibs} {fromAddr : String} {input : ComposeInput}
    {includeBcc : Bool} {built : BuiltMessage}
    (h : buildMessage libs fromAddr input includeBcc = .ok built) :
    ∃ builder, outgoing libs fromAddr input includeBcc = .ok builder ∧
      libs.writeToVec builder = .ok built.raw := by
  obtain ⟨headers, hheaders, h⟩ := bind_eq_ok h
  obtain ⟨reads, hreads, h⟩ := bind_eq_ok h
  obtain ⟨⟨builder, warnings⟩, hbuilder, h⟩ := bind_eq_ok h
  refine ⟨builder, ?_, ?_⟩
  · simp only [outgoing, hheaders, hreads, hbuilder, bind, Except.bind, pure, Except.pure]
  · simp only at h
    split at h
    · cases h
    · rename_i raw hraw
      rw [hraw, ← Except.ok.inj h]

theorem createDraft_eq_ok {libs : ComposeLibs} {fromAddr : String} {input : ComposeInput}
    {built : BuiltMessage} (h : createDraft libs fromAddr input = .ok built) :
    ∃ builder, draftBuilder libs fromAddr input = .ok builder ∧
      libs.writeToVec builder = .ok built.raw := by
  obtain ⟨u, hvalid, h⟩ := bind_eq_ok h
  obtain ⟨builder, hbuilder, hwrite⟩ := buildMessage_eq_ok h
  refine ⟨builder, ?_, hwrite⟩
  simp only [draftBuilder, hvalid, hbuilder, bind, Except.bind]

/-! ## The gate -/

theorem optString_eq {v : Option Json} {o : Option String} (h : optString v = some o) :
    o = v.bind Json.asStr :=
  Json.optional_eq_some rfl h

theorem optBool_eq {v : Option Json} {o : Option Bool} (h : optBool v = some o) :
    o = v.bind Json.asBool :=
  Json.optional_eq_some rfl h

/-- The gate and serde agree on the entries of an array. -/
theorem optional_asVec_getD {α : Type} {decode : Json → Option α} {v : Option Json}
    {l : Option (List α)} (h : Json.optional (Json.asVec decode) v = some l) :
    ((v.bind Json.asArray).getD []).isEmpty = (l.getD []).isEmpty := by
  unfold Json.optional at h
  split at h
  · rw [← Option.some.inj h]
    rfl
  · rw [← Option.some.inj h]
    rfl
  · rename_i v _
    obtain ⟨decoded, hdecoded, rfl⟩ := Option.map_eq_some_iff.mp h
    obtain ⟨items, hitems, hempty⟩ := Json.asVec_eq_some hdecoded
    rw [Option.bind_some, hitems, Option.getD_some, Option.getD_some, Bool.eq_iff_iff,
      List.isEmpty_iff, List.isEmpty_iff, hempty]

theorem promotesSearchToAdvanced_def (args : JsonMap) :
    promotesSearchToAdvanced args =
      (((args.get "advanced_query").bind Json.asStr).isSome ||
        ((args.get "body").bind Json.asStr).isSome ||
        ((args.get "text").bind Json.asStr).isSome ||
        ((args.get "bcc").bind Json.asStr).isSome ||
        !(((args.get "headers").bind Json.asArray).getD []).isEmpty) := by
  unfold promotesSearchToAdvanced
  split
  · rename_i hsome
    rw [hsome, Bool.true_or]
  · rename_i hnone
    rw [Bool.eq_false_iff.mpr hnone, Bool.false_or]
    rcases (args.get "headers").bind Json.asArray with _ | items <;> rfl

/-- The gate of `search` reads what the decoded input holds. -/
theorem promotesSearchToAdvanced_eq {args : JsonMap} {input : SearchInput}
    (h : SearchInput.decode args = some input) :
    promotesSearchToAdvanced args = usesContentOracle input := by
  -- the fields are decoded in order; five of them matter
  iterate 4 obtain ⟨_, -, h⟩ := Option.bind_eq_some_iff.mp h
  obtain ⟨bcc, hbcc, h⟩ := Option.bind_eq_some_iff.mp h
  obtain ⟨_, -, h⟩ := Option.bind_eq_some_iff.mp h
  obtain ⟨body, hbody, h⟩ := Option.bind_eq_some_iff.mp h
  obtain ⟨text, htext, h⟩ := Option.bind_eq_some_iff.mp h
  obtain ⟨headers, hheaders, h⟩ := Option.bind_eq_some_iff.mp h
  iterate 11 obtain ⟨_, -, h⟩ := Option.bind_eq_some_iff.mp h
  obtain ⟨advancedQuery, hquery, h⟩ := Option.bind_eq_some_iff.mp h
  iterate 5 obtain ⟨_, -, h⟩ := Option.bind_eq_some_iff.mp h
  rw [← Option.some.inj h, usesContentOracle, promotesSearchToAdvanced_def,
    optional_asVec_getD hheaders, ← optString_eq hbcc, ← optString_eq hbody, ← optString_eq htext,
    ← optString_eq hquery]

/-- The gate of `fetch_message` is the flag of the decoded input. -/
theorem includesHtml_eq {args : JsonMap} {input : FetchMessageInput}
    (h : FetchMessageInput.decode args = some input) :
    includesHtml args = (input.includeHtml == some true) := by
  iterate 2 obtain ⟨_, -, h⟩ := Option.bind_eq_some_iff.mp h
  obtain ⟨includeHtml, hhtml, h⟩ := Option.bind_eq_some_iff.mp h
  iterate 2 obtain ⟨_, -, h⟩ := Option.bind_eq_some_iff.mp h
  rw [← Option.some.inj h, includesHtml, ← optBool_eq hhtml]

/-- The gate of `create_draft` is the predicate of the builder. -/
theorem promotesDraftToHtml_eq {args : JsonMap} {input : ComposeInput}
    (h : ComposeInput.decode args = some input) :
    promotesDraftToHtml args = (presentHtml input).isSome := by
  iterate 5 obtain ⟨_, -, h⟩ := Option.bind_eq_some_iff.mp h
  obtain ⟨bodyHtml, hhtml, h⟩ := Option.bind_eq_some_iff.mp h
  iterate 3 obtain ⟨_, -, h⟩ := Option.bind_eq_some_iff.mp h
  rw [← Option.some.inj h, promotesDraftToHtml, ← optString_eq hhtml, presentHtml]
  rcases bodyHtml with _ | value
  · rfl
  · simp only [Option.filter]
    rcases bodyHtmlIsPresent value <;> rfl

/-! ## The claim about all three -/

theorem refine_search_iff (args : JsonMap) :
    refineToolName .search (some args) = .searchAdvanced ↔
      promotesSearchToAdvanced args = true := by
  simp only [refineToolName]
  split <;> simp_all

theorem refine_fetchMessage_iff (args : JsonMap) :
    refineToolName .fetchMessage (some args) = .fetchMessageHtml ↔ includesHtml args = true := by
  simp only [refineToolName]
  split <;> simp_all

theorem refine_createDraft_iff (args : JsonMap) :
    refineToolName .createDraft (some args) = .createDraftHtml ↔
      promotesDraftToHtml args = true := by
  simp only [refineToolName]
  split <;> simp_all

/-- **The gate agrees with the handlers.**  A search is promoted exactly when its
    decoded input has a raw query or a content term, and what it then asks the
    mailbox for scans content unless it is a thread walk, which ignores them.  A
    fetch is promoted exactly when it asks for HTML, and only then is HTML that the
    message has in the answer.  A draft is promoted exactly when it has an HTML
    body that counts, and only then has the message an HTML alternative. -/
theorem gate_agrees {Date : Type} (timeParse : String → Except String Date) (libs : ComposeLibs)
    (fromAddr : String) (args : JsonMap) :
    (∀ input, SearchInput.decode args = some input →
      (refineToolName .search (some args) = .searchAdvanced ↔ usesContentOracle input = true) ∧
      ∀ request, searchRequest timeParse input = .ok request →
        (request.scansContent = true ↔
          input.threadOfUid = none ∧ refineToolName .search (some args) = .searchAdvanced)) ∧
    (∀ input, FetchMessageInput.decode args = some input →
      (refineToolName .fetchMessage (some args) = .fetchMessageHtml ↔
        input.includeHtml = some true) ∧
      ∀ response, fetchMessage libs input = .ok response →
        ∃ fetched, fetchContent libs input = .ok fetched ∧
          (response.bodyHtml.isSome = true ↔ fetched.content.bodyHtml.isSome = true ∧
            refineToolName .fetchMessage (some args) = .fetchMessageHtml)) ∧
    (∀ input, ComposeInput.decode args = some input →
      (refineToolName .createDraft (some args) = .createDraftHtml ↔
        (presentHtml input).isSome = true) ∧
      ∀ built, createDraft libs fromAddr input = .ok built →
        ∃ builder, draftBuilder libs fromAddr input = .ok builder ∧
          libs.writeToVec builder = .ok built.raw ∧
          (builder.htmlBody.isSome = true ↔
            refineToolName .createDraft (some args) = .createDraftHtml)) := by
  refine ⟨fun input hdecode => ?_, fun input hdecode => ?_, fun input hdecode => ?_⟩
  · rw [refine_search_iff, promotesSearchToAdvanced_eq hdecode]
    refine ⟨Iff.rfl, fun request hrequest => ?_⟩
    rw [searchRequest_scansContent hrequest, Bool.and_eq_true, Option.isNone_iff_eq_none]
  · rw [refine_fetchMessage_iff, includesHtml_eq hdecode, beq_iff_eq]
    refine ⟨Iff.rfl, fun response hresponse => ?_⟩
    obtain ⟨fetched, hfetched, rfl⟩ := fetchMessage_eq_ok hresponse
    refine ⟨fetched, hfetched, ?_⟩
    rw [respond_bodyHtml_isSome, Bool.and_eq_true, beq_iff_eq, and_comm]
  · rw [refine_createDraft_iff, promotesDraftToHtml_eq hdecode]
    refine ⟨Iff.rfl, fun built hbuilt => ?_⟩
    obtain ⟨builder, hbuilder, hwrite⟩ := createDraft_eq_ok hbuilt
    refine ⟨builder, hbuilder, hwrite, ?_⟩
    obtain ⟨u, -, houtgoing⟩ := bind_eq_ok hbuilder
    rw [outgoing_htmlBody houtgoing]

/-! ## Runs -/

/-- A mailbox and a sandbox that hold one message and one file. -/
def sampleLibs (message : Message) (contents : Bytes) : ComposeLibs :=
  { htmlOnlyLibs message [] "" with
    generateMessageId := fun fromAddr => "1." ++ fromAddr
    fetchBody := fun _ _ => .ok (utf8Bytes "Subject: a\r\n\r\nhello")
    readSandboxedFile := fun _ _ => .ok contents
    sniffMime := fun _ => none
    writeToVec := fun builder => .ok (utf8Bytes builder.textBody) }

def plainMessage : Message where
  subject := some "a"
  headers := [⟨"Subject", .text "a", 8, 12⟩]
  parts := [{ body := .text "hello" }]
  textBody := [0]

def fetchArgs : JsonMap :=
  ⟨[("folder", .string "INBOX"), ("uid", .number "7"), ("include_html", .bool true)], by decide⟩

def draftArgs : JsonMap :=
  ⟨[("to", .array [.object [("address", .string "bob@example.com")]]),
    ("subject", .string "a"), ("body_text", .string "see attached"),
    ("attachments", .array [.object [("path", .string "page"),
      ("content_type", .string "text/html")]])], by decide⟩

/-- A test on what a call returns, once its arguments are decoded. -/
def returns {α β : Type} (input : Option α) (handler : α → Except RimapError β)
    (test : β → Bool) : Bool :=
  match input with
  | none => false
  | some input =>
      match handler input with
      | .ok result => test result
      | .error _ => false

theorem exists_of_returns {α β : Type} {input : Option α} {handler : α → Except RimapError β}
    {test : β → Bool} (h : returns input handler test = true) :
    ∃ i result, input = some i ∧ handler i = .ok result ∧ test result = true := by
  unfold returns at h
  split at h
  · cases h
  · rename_i i
    split at h
    · rename_i result hresult
      exact ⟨i, result, rfl, hresult, h⟩
    · cases h

/-- A fetch that asks for the HTML of a plain message is promoted and returns none;
    a draft with an attachment of type `text/html` is not promoted and has an HTML
    part. -/
theorem gate_disagrees :
    (∃ input response, FetchMessageInput.decode fetchArgs = some input ∧
      fetchMessage (sampleLibs plainMessage []) input = .ok response ∧
      response.bodyHtml = none ∧
      refineToolName .fetchMessage (some fetchArgs) = .fetchMessageHtml) ∧
    (∃ input builder, ComposeInput.decode draftArgs = some input ∧
      draftBuilder (sampleLibs plainMessage (utf8Bytes "<p>a</p>")) "alice@example.com" input =
        .ok builder ∧
      emitsHtmlPart builder = true ∧
      refineToolName .createDraft (some draftArgs) = .createDraft) := by
  constructor
  · have htest : returns (FetchMessageInput.decode fetchArgs)
        (fetchMessage (sampleLibs plainMessage [])) (fun response => response.bodyHtml.isNone) =
          true := by decide +kernel
    obtain ⟨input, response, hdecode, hresponse, hnone⟩ := exists_of_returns htest
    exact ⟨input, response, hdecode, hresponse, Option.isNone_iff_eq_none.mp hnone, by decide⟩
  · have htest : returns (ComposeInput.decode draftArgs)
        (draftBuilder (sampleLibs plainMessage (utf8Bytes "<p>a</p>")) "alice@example.com")
        emitsHtmlPart = true := by decide +kernel
    obtain ⟨input, builder, hdecode, hbuilder, hpart⟩ := exists_of_returns htest
    exact ⟨input, builder, hdecode, hbuilder, hpart, by decide⟩

def searchArgs : JsonMap :=
  ⟨[("folder", .string "INBOX"), ("body", .string "invoice")], by decide⟩

/-- A body search is promoted. -/
theorem gate_agrees_search :
    refineToolName .search (some searchArgs) = .searchAdvanced := by
  have htest : returns (SearchInput.decode searchArgs) (fun input => .ok input)
      usesContentOracle = true := by decide +kernel
  obtain ⟨input, result, hdecode, hresult, huses⟩ := exists_of_returns htest
  rw [← Except.ok.inj hresult] at huses
  have hgate := gate_agrees (fun s => .ok s) (sampleLibs plainMessage []) "alice@example.com"
    searchArgs
  exact (hgate.1 input hdecode).1.mpr huses

end RustyImap.SubCapability
