import Mathlib
import RustyImap.PostureMatrix

/-!
# From a wire tool name to the posture check

The first half of `ImapMcpServer::dispatch_call_tool`
(`rimap-server/src/mcp/server.rs`) with the helpers of
`rimap-server/src/mcp/tool_name.rs`: split the account prefix off, parse the
tool, look it up in `TOOL_DEFS`, refine it by the shape of its arguments, and
ask the effective matrix about the *refined* tool.

Advertisement (`EffectiveMatrix::advertised`) is about the parent tool and the
check about the sub-capability.  Overrides may be set on the two independently,
and the last section says exactly when the two disagree.
-/

namespace RustyImap

/-! ## JSON arguments -/

/-- `serde_json::Value`.  A number is kept as its literal; nothing reads it. -/
inductive Json where
  | null
  | bool (b : Bool)
  | number (literal : String)
  | string (s : String)
  | array (items : List Json)
  | object (fields : List (String × Json))

namespace Json

def asBool : Json → Option Bool
  | bool b => some b
  | _ => none

def asStr : Json → Option String
  | string s => some s
  | _ => none

def asArray : Json → Option (List Json)
  | array items => some items
  | _ => none

end Json

/-- `serde_json::Map`: a key occurs once. -/
structure JsonMap where
  entries : List (String × Json)
  nodup : (entries.map Prod.fst).Nodup

def JsonMap.get (args : JsonMap) (key : String) : Option Json :=
  (args.entries.find? fun entry => entry.1 == key).map Prod.snd

/-! ## Refinement by argument shape -/

/-- `char::is_whitespace`: the Unicode property `White_Space`. -/
def isWhitespace (c : Char) : Bool :=
  let n := c.toNat
  (9 ≤ n && n ≤ 13) || n == 32 || n == 0x85 || n == 0xA0 || n == 0x1680 ||
    (0x2000 ≤ n && n ≤ 0x200A) || n == 0x2028 || n == 0x2029 || n == 0x202F ||
    n == 0x205F || n == 0x3000

/-- `str::trim`, on the characters. -/
def trim (s : List Char) : List Char :=
  ((s.dropWhile isWhitespace).reverse.dropWhile isWhitespace).reverse

def bodyHtmlIsPresent (value : String) : Bool := !(trim value.toList).isEmpty

/-- The guard of the `fetch_message` arm of `refine_tool_name`. -/
def includesHtml (args : JsonMap) : Bool :=
  (args.get "include_html").bind Json.asBool == some true

def promotesDraftToHtml (args : JsonMap) : Bool :=
  match (args.get "body_html").bind Json.asStr with
  | some value => bodyHtmlIsPresent value
  | none => false

def promotesSearchToAdvanced (args : JsonMap) : Bool :=
  if ((args.get "advanced_query").bind Json.asStr).isSome ||
      ((args.get "body").bind Json.asStr).isSome ||
      ((args.get "text").bind Json.asStr).isSome ||
      ((args.get "bcc").bind Json.asStr).isSome then true
  else
    match (args.get "headers").bind Json.asArray with
    | some items => !items.isEmpty
    | none => false

def refineToolName (base : ToolName) (args : Option JsonMap) : ToolName :=
  match args with
  | none => base
  | some args =>
      match base with
      | .fetchMessage => if includesHtml args then .fetchMessageHtml else base
      | .search => if promotesSearchToAdvanced args then .searchAdvanced else base
      | .createDraft => if promotesDraftToHtml args then .createDraftHtml else base
      | _ => base

/-! ## Splitting and parsing the wire name -/

/-- `str::split_once`. -/
def splitOnce (s : String) (c : Char) : Option (String × String) :=
  match s.toList.dropWhile (· != c) with
  | [] => none
  | _ :: rest => some (.ofList (s.toList.takeWhile (· != c)), .ofList rest)

/-- `str::len`: UTF-8 bytes. -/
def utf8Len (s : String) : Nat := (s.toList.map Char.utf8Size).sum

def isAsciiAlphanumeric (c : Char) : Bool :=
  ('0' ≤ c && c ≤ '9') || ('A' ≤ c && c ≤ 'Z') || ('a' ≤ c && c ≤ 'z')

def isValidAccountPrefix (s : String) : Bool :=
  !s.toList.isEmpty && decide (utf8Len s ≤ 64) &&
    s.toList.all fun c => isAsciiAlphanumeric c || c == '-'

/-- Split a possibly namespaced tool name into account and tool.  A name that
    parses as it is stays bare, so that `search.advanced_query` keeps its dot. -/
def splitToolName (raw : String) : Option String × String :=
  if (ToolName.fromStr raw).isSome then (none, raw)
  else
    match splitOnce raw '.' with
    | some (account, rest) =>
        if isValidAccountPrefix account && (ToolName.fromStr rest).isSome then (some account, rest)
        else (none, raw)
    | none => (none, raw)

/-- `rmcp`'s `ErrorData` without its optional payload. -/
structure ErrorData where
  code : Int
  message : String
deriving DecidableEq, Repr

def INVALID_PARAMS : Int := -32602

def RESOURCE_NOT_FOUND : Int := -32002

/-- The title `tool_def_parts` gives a tool.  The three sub-capabilities have no
    definition of their own; they share the schema of their parent. -/
def toolDefParts : ToolName → Option String
  | .listFolders => some "List IMAP Folders"
  | .search => some "Search Messages"
  | .fetchMessage => some "Fetch Message"
  | .listAttachments => some "List Message Attachments"
  | .downloadAttachment => some "Download Attachment"
  | .exportMessages => some "Export Messages"
  | .markRead => some "Mark Messages Read"
  | .markUnread => some "Mark Messages Unread"
  | .flag => some "Flag Messages"
  | .unflag => some "Unflag Messages"
  | .addLabel => some "Add Label to Messages"
  | .removeLabel => some "Remove Label from Messages"
  | .listLabels => some "List Labels on Message"
  | .moveMessage => some "Move Messages"
  | .createDraft => some "Create Draft Email"
  | .sendEmail => some "Send Email"
  | .forward => some "Forward Message"
  | .deleteMessage => some "Delete Message"
  | .expunge => some "Expunge Folder"
  | .createFolder => some "Create IMAP Folder"
  | .renameFolder => some "Rename IMAP Folder"
  | .deleteFolder => some "Delete IMAP Folder"
  | .useAccount => some "Select Active Account"
  | .listAccounts => some "List Email Accounts"
  | .searchAdvanced | .fetchMessageHtml | .createDraftHtml => none

/-- `dispatch_call_tool` up to and including the `TOOL_DEFS` check. -/
def parseWireName (name : String) : Except ErrorData (Option String × ToolName) :=
  let (account, bare) := splitToolName name
  match ToolName.fromStr bare with
  | none => .error ⟨INVALID_PARAMS, "unknown tool name `" ++ bare ++ "`"⟩
  | some parsed =>
      match toolDefParts parsed with
      | none => .error ⟨RESOURCE_NOT_FOUND, "tool `" ++ name ++ "` is not available"⟩
      | some _ => .ok (account, parsed)

/-! ## The posture stage -/

inductive PostureStage where
  | rejected (err : ErrorData)
  | infrastructure (tool : ToolName)      -- bypasses the guard
  | denied (err : AuthzError)
  | admitted (wire refined : ToolName)
deriving DecidableEq

/-- What the matrix of the resolved account says about a call.  The check that
    runs is the one about the refined tool. -/
def postureStage (m : EffectiveMatrix) (name : String) (args : Option JsonMap) : PostureStage :=
  match parseWireName name with
  | .error err => .rejected err
  | .ok (_, wire) =>
      let tool := refineToolName wire args
      if tool.isInfrastructure then .infrastructure tool
      else
        match m.check tool with
        | .error err => .denied err
        | .ok () => .admitted wire tool

/-- The three promotions, each under the predicate of its arm. -/
inductive Promotes (args : JsonMap) : ToolName → ToolName → Prop where
  | fetchMessage (h : includesHtml args = true) : Promotes args .fetchMessage .fetchMessageHtml
  | search (h : promotesSearchToAdvanced args = true) : Promotes args .search .searchAdvanced
  | createDraft (h : promotesDraftToHtml args = true) :
      Promotes args .createDraft .createDraftHtml

theorem Promotes.refine_eq {args : JsonMap} {parent child : ToolName}
    (h : Promotes args parent child) : refineToolName parent (some args) = child := by
  cases h with
  | fetchMessage h => simp [refineToolName, h]
  | search h => simp [refineToolName, h]
  | createDraft h => simp [refineToolName, h]

/-- Refinement keeps the tool or follows one of the three promotions. -/
theorem refineToolName_cases (base : ToolName) (args : Option JsonMap) :
    refineToolName base args = base ∨
      ∃ args', args = some args' ∧ Promotes args' base (refineToolName base args) := by
  cases args with
  | none => exact Or.inl rfl
  | some args =>
      cases base with
      | fetchMessage =>
          by_cases h : includesHtml args = true
          · exact Or.inr ⟨args, rfl, by simpa [refineToolName, h] using .fetchMessage h⟩
          · exact Or.inl (by simp [refineToolName, h])
      | search =>
          by_cases h : promotesSearchToAdvanced args = true
          · exact Or.inr ⟨args, rfl, by simpa [refineToolName, h] using .search h⟩
          · exact Or.inl (by simp [refineToolName, h])
      | createDraft =>
          by_cases h : promotesDraftToHtml args = true
          · exact Or.inr ⟨args, rfl, by simpa [refineToolName, h] using .createDraft h⟩
          · exact Or.inl (by simp [refineToolName, h])
      | _ => exact Or.inl rfl

theorem parseWireName_eq_ok {name : String} {account : Option String} {tool : ToolName} :
    parseWireName name = .ok (account, tool) ↔
      splitToolName name = (account, tool.asStr) ∧ (toolDefParts tool).isSome = true := by
  unfold parseWireName
  rcases hsplit : splitToolName name with ⟨account', bare⟩
  cases hparse : ToolName.fromStr bare with
  | none =>
      have hne : bare ≠ tool.asStr := by
        intro heq
        rw [heq, ToolName.fromStr_asStr] at hparse
        cases hparse
      simp [hparse, hne]
  | some parsed =>
      have hname := ToolName.fromStr_eq_some.mp hparse
      subst hname
      have heq : parsed.asStr = tool.asStr ↔ parsed = tool :=
        ⟨fun h => ToolName.asStr_injective h, fun h => by rw [h]⟩
      cases hdef : toolDefParts parsed with
      | none =>
          simp only [ToolName.fromStr_asStr, hdef]
          constructor
          · intro h
            cases h
          · rintro ⟨hpair, hsome⟩
            rw [heq.mp (Prod.mk.inj hpair).2] at hdef
            rw [hdef] at hsome
            cases hsome
      | some title =>
          simp only [ToolName.fromStr_asStr, hdef, Except.ok.injEq, Prod.mk.injEq, heq]
          constructor
          · rintro ⟨rfl, rfl⟩
            exact ⟨⟨rfl, rfl⟩, by simp [hdef]⟩
          · rintro ⟨hpair, -⟩
            exact hpair

/-- A call is admitted exactly when its wire name parses and the matrix allows
    the refined, account-scoped tool. -/
theorem postureStage_eq_admitted {m : EffectiveMatrix} {name : String} {args : Option JsonMap}
    {wire refined : ToolName} :
    postureStage m name args = .admitted wire refined ↔
      (∃ account, parseWireName name = .ok (account, wire)) ∧
        refined = refineToolName wire args ∧ refined.isInfrastructure = false ∧
        m.allows refined = true := by
  unfold postureStage
  rcases hparse : parseWireName name with err | ⟨account, parsed⟩
  · simp
  · simp only
    cases hinfra : (refineToolName parsed args).isInfrastructure with
    | true =>
        simp only [if_true]
        constructor
        · intro h
          cases h
        · rintro ⟨⟨account', hok⟩, rfl, hno, -⟩
          cases hok
          rw [hinfra] at hno
          cases hno
    | false =>
        simp only [Bool.false_eq_true, if_false]
        cases hcheck : m.check (refineToolName parsed args) with
        | error err =>
            simp only
            constructor
            · intro h
              cases h
            · rintro ⟨⟨account', hok⟩, rfl, -, hallows⟩
              cases hok
              rw [EffectiveMatrix.check_eq_ok.mpr hallows] at hcheck
              cases hcheck
        | ok u =>
            simp only [PostureStage.admitted.injEq]
            constructor
            · rintro ⟨rfl, rfl⟩
              exact ⟨⟨account, rfl⟩, rfl, hinfra, EffectiveMatrix.check_eq_ok.mp hcheck⟩
            · rintro ⟨⟨account', hok⟩, rfl, -, -⟩
              cases hok
              exact ⟨rfl, rfl⟩

/-! ## Where advertisement and the check disagree -/

/-- The base table never allows a sub-capability whose parent it denies, so the
    disagreement needs an override. -/
theorem baseAllows_parent {args : JsonMap} {parent child : ToolName}
    (h : Promotes args parent child) (posture : Posture)
    (hchild : baseAllows posture child = true) : baseAllows posture parent = true := by
  cases h <;> revert hchild <;> cases posture <;> decide

/-- The call names a tool that the merged matrix denies, with arguments that
    promote it to a sub-capability that the merged matrix allows. -/
def ReachesDeniedParent (posture : Posture) (overrides : Overrides) (name : String)
    (args : Option JsonMap) : Prop :=
  ∃ args' parent child, args = some args' ∧ (splitToolName name).2 = parent.asStr ∧
    Promotes args' parent child ∧
    EffectiveMatrix.effective posture overrides parent = false ∧
    EffectiveMatrix.effective posture overrides child = true

theorem Promotes.toolDef_isSome {args : JsonMap} {parent child : ToolName}
    (h : Promotes args parent child) : (toolDefParts parent).isSome = true := by
  cases h <;> rfl

theorem Promotes.not_infrastructure {args : JsonMap} {parent child : ToolName}
    (h : Promotes args parent child) :
    parent.isInfrastructure = false ∧ child.isInfrastructure = false := by
  cases h <;> exact ⟨rfl, rfl⟩

theorem not_reachesDeniedParent_of_no_overrides (posture : Posture) (name : String)
    (args : Option JsonMap) : ¬ ReachesDeniedParent posture (fun _ => none) name args := by
  rintro ⟨args', parent, child, -, -, hpromotes, hdenied, hallowed⟩
  have hparent : baseAllows posture parent = true := baseAllows_parent hpromotes posture hallowed
  rw [EffectiveMatrix.effective, hparent] at hdenied
  cases hdenied

/-- **A denied parent is out of reach, up to promotion.**  Every call that the
    posture stage admits is of an advertised tool exactly when the call does
    not promote a denied parent to an allowed sub-capability. -/
theorem admitted_only_advertised_iff (posture : Posture) (overrides : Overrides)
    (name : String) (args : Option JsonMap) :
    (∀ wire refined,
        postureStage (.build posture overrides) name args = .admitted wire refined →
          wire ∈ (EffectiveMatrix.build posture overrides).advertised) ↔
      ¬ ReachesDeniedParent posture overrides name args := by
  constructor
  · intro hall
    rintro ⟨args', parent, child, rfl, hname, hpromotes, hdenied, hallowed⟩
    have hparse : parseWireName name = .ok ((splitToolName name).1, parent) :=
      parseWireName_eq_ok.mpr ⟨Prod.ext rfl hname, hpromotes.toolDef_isSome⟩
    have hadmitted : postureStage (.build posture overrides) name (some args') =
        .admitted parent child :=
      postureStage_eq_admitted.mpr
        ⟨⟨_, hparse⟩, hpromotes.refine_eq.symm, hpromotes.not_infrastructure.2,
          by simpa using hallowed⟩
    have hmem := hall parent child hadmitted
    rw [EffectiveMatrix.mem_advertised, EffectiveMatrix.allows_build, hdenied] at hmem
    cases hmem
  · intro hnot wire refined hadmitted
    obtain ⟨⟨account, hparse⟩, hrefined, -, hallows⟩ := postureStage_eq_admitted.mp hadmitted
    rw [EffectiveMatrix.mem_advertised, EffectiveMatrix.allows_build]
    rw [EffectiveMatrix.allows_build, hrefined] at hallows
    rcases refineToolName_cases wire args with hsame | ⟨args', rfl, hpromotes⟩
    · -- not promoted: the tool that was checked is the one advertised
      rwa [hsame] at hallows
    · by_contra hdenied
      refine hnot ⟨args', wire, _, rfl, ?_, hpromotes, by simpa using hdenied, hallows⟩
      rw [(parseWireName_eq_ok.mp hparse).1]

/-- `search` denied by an override under the `full` posture. -/
def denySearch : Overrides
  | .search => some .deny
  | _ => none

/-- The override removes `search` from the catalogue, and a `body` argument
    still runs it, as `search.advanced_query`. -/
theorem denied_search_runs_with_body :
    ¬ ∀ (posture : Posture) (overrides : Overrides) (name : String) (args : Option JsonMap)
        (wire refined : ToolName),
      postureStage (.build posture overrides) name args = .admitted wire refined →
        wire ∈ (EffectiveMatrix.build posture overrides).advertised := by
  intro hall
  have hmem := hall .full denySearch "search"
    (some ⟨[("folder", .string "INBOX"), ("body", .string "invoice")], by decide⟩)
    .search .searchAdvanced (by decide)
  revert hmem
  decide

end RustyImap
