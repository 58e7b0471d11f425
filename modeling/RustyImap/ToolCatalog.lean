import RustyImap.ToolRefinement

/-!
# The advertised catalogue and its decoder

`build_tool_catalog_for` names tools for the client, `dispatch_call_tool` reads
such a name back (both `rimap-server/src/mcp/server.rs`), with the account
types of `rimap-core/src/account.rs` and the lookup of
`rimap-server/src/boot/registry.rs`.  Of a catalogue entry the model keeps the
name and the title; descriptions and schemas are copied through and nothing
reads them.

The catalogue is the encoder and dispatch the decoder of one name space:
`catalog_round_trips_iff` says for which account maps they are inverse.
-/

namespace RustyImap

/-! ## Account identifiers -/

def MAX_ACCOUNT_NAME_LEN : Nat := 64

def DEFAULT_ACCOUNT_NAME : String := "default"

def isAccountChar (c : Char) : Bool :=
  ('0' ≤ c && c ≤ '9') || ('a' ≤ c && c ≤ 'z') || c == '-'

/-- Validated and lowercased account identifier. -/
@[ext] structure AccountId where
  name : String
  nonempty : name.toList ≠ []
  short : utf8Len name ≤ MAX_ACCOUNT_NAME_LEN
  chars : ∀ c ∈ name.toList, isAccountChar c = true
deriving DecidableEq

structure InvalidAccountName where
  name : String
  reason : String
deriving DecidableEq, Repr

/-- `str::to_ascii_lowercase`. -/
def toAsciiLowercase (s : String) : String := .ofList (s.toList.map Char.toLower)

theorem ascii_of_account_input {c : Char} (h : (isAsciiAlphanumeric c || c == '-') = true) :
    c.toNat < 128 := by
  have hval : c.toNat = c.val.toNat := rfl
  have h9 : '9'.val.toNat = 57 := rfl
  have hZ : 'Z'.val.toNat = 90 := rfl
  have hz : 'z'.val.toNat = 122 := rfl
  simp only [isAsciiAlphanumeric, Bool.or_eq_true, Bool.and_eq_true, decide_eq_true_eq,
    beq_iff_eq, Char.le_def, UInt32.le_iff_toNat_le] at h
  rcases h with ((⟨-, h⟩ | ⟨-, h⟩) | ⟨-, h⟩) | rfl
  · omega
  · omega
  · omega
  · decide

/-- What lowercasing does to an accepted character. -/
theorem toLower_account_input {c : Char} (h : (isAsciiAlphanumeric c || c == '-') = true) :
    isAccountChar c.toLower = true ∧ c.toLower.utf8Size = c.utf8Size := by
  have htable : ∀ n < 128,
      (isAsciiAlphanumeric (Char.ofNat n) || Char.ofNat n == '-') = true →
        isAccountChar (Char.ofNat n).toLower = true ∧
          (Char.ofNat n).toLower.utf8Size = (Char.ofNat n).utf8Size := by
    decide
  have hc := htable c.toNat (ascii_of_account_input h)
  rw [Char.ofNat_toNat] at hc
  exact hc h

theorem accountChar_input {c : Char} (h : isAccountChar c = true) :
    (isAsciiAlphanumeric c || c == '-') = true ∧ c ≠ '.' ∧ c.toLower = c := by
  have hinput : (isAsciiAlphanumeric c || c == '-') = true := by
    simp only [isAccountChar, isAsciiAlphanumeric, Bool.or_eq_true] at h ⊢
    rcases h with (h | h) | h
    · exact Or.inl (Or.inl (Or.inl h))
    · exact Or.inl (Or.inr h)
    · exact Or.inr h
  have htable : ∀ n < 128, isAccountChar (Char.ofNat n) = true →
      Char.ofNat n ≠ '.' ∧ (Char.ofNat n).toLower = Char.ofNat n := by
    decide
  have hc := htable c.toNat (ascii_of_account_input hinput)
  rw [Char.ofNat_toNat] at hc
  exact ⟨hinput, hc h⟩

namespace AccountId

/-- `AccountId::new`: validate, then store the lowercased name. -/
def new (name : String) : Except InvalidAccountName AccountId :=
  if hempty : name.toList = [] then .error ⟨name, "must not be empty"⟩
  else if hlong : MAX_ACCOUNT_NAME_LEN < utf8Len name then
    .error ⟨name, "must be at most 64 characters"⟩
  else
    match hbad : name.toList.find? fun c => !(isAsciiAlphanumeric c || c == '-') with
    | some bad =>
        .error ⟨name, "contains invalid character '" ++ bad.toString ++
          "'; only ASCII alphanumerics and hyphens allowed"⟩
    | none =>
        have hinput : ∀ c ∈ name.toList, (isAsciiAlphanumeric c || c == '-') = true := by
          intro c hc
          have hgood := List.find?_eq_none.mp hbad c hc
          rwa [Bool.not_eq_true, Bool.not_eq_false'] at hgood
        .ok
          { name := toAsciiLowercase name
            nonempty := by simpa [toAsciiLowercase] using hempty
            short := by
              have hsize : (name.toList.map Char.toLower).map Char.utf8Size =
                  name.toList.map Char.utf8Size := by
                rw [List.map_map]
                exact List.map_congr_left fun c hc => (toLower_account_input (hinput c hc)).2
              have hlen : utf8Len (toAsciiLowercase name) = utf8Len name := by
                simp only [utf8Len, toAsciiLowercase, String.toList_ofList, hsize]
              omega
            chars := by
              intro c hc
              simp only [toAsciiLowercase, String.toList_ofList, List.mem_map] at hc
              obtain ⟨c₀, hmem, rfl⟩ := hc
              exact (toLower_account_input (hinput c₀ hmem)).1 }

/-- The legacy single-account sentinel renders as no account. -/
def asOptional (id : AccountId) : Option AccountId :=
  if id.name ≠ DEFAULT_ACCOUNT_NAME then some id else none

/-- A stored identifier parses back to itself. -/
theorem new_name (id : AccountId) : new id.name = .ok id := by
  have hinput : ∀ c ∈ id.name.toList, (isAsciiAlphanumeric c || c == '-') = true :=
    fun c hc => (accountChar_input (id.chars c hc)).1
  have hlower : toAsciiLowercase id.name = id.name := by
    have hmap : id.name.toList.map Char.toLower = id.name.toList := by
      rw [List.map_congr_left fun c hc => (accountChar_input (id.chars c hc)).2.2]
      exact List.map_id _
    rw [toAsciiLowercase, hmap, String.ofList_toList]
  unfold new
  rw [dif_neg id.nonempty, dif_neg (Nat.not_lt.mpr id.short)]
  split
  · rename_i bad hbad
    have hnot := List.find?_some hbad
    have hmem := List.mem_of_find?_eq_some hbad
    rw [hinput bad hmem] at hnot
    cases hnot
  · simp only [Except.ok.injEq]
    exact AccountId.ext hlower

theorem isValidAccountPrefix_name (id : AccountId) : isValidAccountPrefix id.name = true := by
  have hchars : ∀ c ∈ id.name.toList, (isAsciiAlphanumeric c || c == '-') = true :=
    fun c hc => (accountChar_input (id.chars c hc)).1
  have hshort : utf8Len id.name ≤ 64 := id.short
  simp only [isValidAccountPrefix, Bool.and_eq_true, decide_eq_true_eq, List.all_eq_true]
  refine ⟨⟨?_, hshort⟩, hchars⟩
  simpa using id.nonempty

theorem dot_not_mem (id : AccountId) : '.' ∉ id.name.toList :=
  fun h => (accountChar_input (id.chars '.' h)).2.1 rfl

end AccountId

/-! ## Accounts and their resolution -/

/-- What the catalogue and the dispatcher read of an `AccountState`. -/
structure AccountState where
  id : AccountId
  posture : Posture
  overrides : Overrides

def AccountState.matrix (state : AccountState) : EffectiveMatrix :=
  .build state.posture state.overrides

/-- `BTreeMap<AccountId, AccountState>`: boot inserts every state under its own
    id, and iteration is in key order. -/
structure AccountMap where
  states : List AccountState
  sorted : states.Pairwise fun a b => a.id.name < b.id.name

namespace AccountMap

def get (accounts : AccountMap) (id : AccountId) : Option AccountState :=
  accounts.states.find? fun state => state.id == id

def accountNameStrings (accounts : AccountMap) : List String :=
  accounts.states.map fun state => state.id.name

def findByName (accounts : AccountMap) (name : String) : Option AccountState :=
  match AccountId.new name with
  | .error _ => none
  | .ok id => accounts.get id

/-- `AccountRegistry::resolve`. -/
def resolve (accounts : AccountMap) (explicit : Option String) :
    Except RimapError AccountState :=
  match explicit with
  | some name =>
      match accounts.findByName name with
      | some state => .ok state
      | none => .error (.unknownAccount name accounts.accountNameStrings)
  | none =>
      match accounts.states with
      | [state] => .ok state
      | _ => .error (.noAccount accounts.accountNameStrings)

def isLegacySingleAccount (accounts : AccountMap) : Bool :=
  accounts.states.length == 1 &&
    (accounts.states.head?.map fun state => state.id.asOptional.isNone).getD false

theorem nodup_ids (accounts : AccountMap) : (accounts.states.map AccountState.id).Nodup := by
  rw [List.Nodup, List.pairwise_map]
  apply accounts.sorted.imp
  intro a b hlt heq
  rw [heq] at hlt
  exact String.lt_irrefl _ hlt

theorem get_of_mem {accounts : AccountMap} {state : AccountState}
    (h : state ∈ accounts.states) : accounts.get state.id = some state := by
  have hnodup := accounts.nodup_ids
  unfold get
  generalize accounts.states = states at h hnodup
  induction states with
  | nil => cases h
  | cons head tail ih =>
      rw [List.map_cons, List.nodup_cons] at hnodup
      rcases List.mem_cons.mp h with rfl | htail
      · simp
      · have hne : head.id ≠ state.id := by
          intro heq
          exact hnodup.1 (heq ▸ List.mem_map_of_mem htail)
        rw [List.find?_cons_of_neg (by simpa using hne)]
        exact ih htail hnodup.2

/-- A namespaced call finds the account the namespace names. -/
theorem resolve_name {accounts : AccountMap} {state : AccountState}
    (h : state ∈ accounts.states) : accounts.resolve (some state.id.name) = .ok state := by
  simp only [resolve, findByName, AccountId.new_name, get_of_mem h]

theorem isLegacySingleAccount_iff {accounts : AccountMap} :
    accounts.isLegacySingleAccount = true ↔
      ∃ state, accounts.states = [state] ∧ state.id.name = DEFAULT_ACCOUNT_NAME := by
  unfold isLegacySingleAccount
  rcases accounts.states with _ | ⟨state, _ | ⟨state', tail⟩⟩
  · simp
  · simp [AccountId.asOptional]
  · simp

end AccountMap

/-! ## Encoder: the advertised catalogue -/

structure Tool where
  name : String
  title : String
  annotationsTitle : String
deriving DecidableEq, Repr

def TOOL_DEFS (tool : ToolName) : Option Tool :=
  (toolDefParts tool).map fun title => ⟨tool.asStr, title, title⟩

def namespacedTitle (accountId baseTitle : String) : String :=
  "[" ++ accountId ++ "] " ++ baseTitle

def buildAdvertisedTool (baseDef : Tool) (accountId : String) (namespaced : Bool) : Tool :=
  if !namespaced then baseDef
  else
    { name := accountId ++ "." ++ baseDef.name
      title := namespacedTitle accountId baseDef.title
      annotationsTitle := namespacedTitle accountId baseDef.title }

/-- `build_tool_catalog_for`. -/
def buildToolCatalogFor (accounts : AccountMap) (active : Option String) : List Tool :=
  let infrastructure := [ToolName.useAccount, .listAccounts].filterMap TOOL_DEFS
  if 1 < accounts.states.length && active.isNone then infrastructure
  else
    let useBareNames := accounts.isLegacySingleAccount
    infrastructure ++ accounts.states.flatMap fun state =>
      if active.any (· != state.id.name) then []
      else
        state.matrix.advertised.filterMap fun tool =>
          (TOOL_DEFS tool).map fun baseDef =>
            buildAdvertisedTool baseDef state.id.name (!useBareNames)

/-! ## Decoder: dispatch up to the resolved account -/

def isBareSimpleToolName (raw : String) : Bool :=
  if raw.toList.contains '.' then false
  else
    match ToolName.fromStr raw with
    | none => false
    | some tool => !(tool == .useAccount || tool == .listAccounts)

def validateBareToolNamespace (legacySingleAccount : Bool) (rawName : String) :
    Except ErrorData Unit :=
  if !legacySingleAccount && isBareSimpleToolName rawName then
    .error ⟨INVALID_PARAMS,
      "tool name must be namespaced in multi-account mode: <account>." ++ rawName⟩
  else .ok ()

/-- Where a call is sent. -/
inductive Target where
  | infrastructure (tool : ToolName)
  | accountScoped (state : AccountState) (tool : ToolName)

/-- A rejection before any handler runs: one of the protocol errors of
    `dispatch_call_tool`, or the account error it renders. -/
inductive DispatchError where
  | protocol (err : ErrorData)
  | account (err : RimapError)
deriving DecidableEq

/-- `dispatch_call_tool` up to the call of its handler. -/
def dispatchCallTool (accounts : AccountMap) (name : String) (args : Option JsonMap) :
    Except DispatchError Target :=
  match parseWireName name with
  | .error err => .error (.protocol err)
  | .ok (namespacedAccount, parsedTool) =>
      let tool := refineToolName parsedTool args
      match validateBareToolNamespace accounts.isLegacySingleAccount name with
      | .error err => .error (.protocol err)
      | .ok () =>
          if tool.isInfrastructure then
            if namespacedAccount.isSome then
              .error (.protocol ⟨INVALID_PARAMS, "infrastructure tools cannot be namespaced"⟩)
            else .ok (.infrastructure tool)
          else
            match accounts.resolve namespacedAccount with
            | .error err => .error (.account err)
            | .ok state => .ok (.accountScoped state tool)

/-- A call that dispatch hands to an account has passed the parse stage, and the
    guard that runs next is the posture stage of that account's matrix. -/
theorem postureStage_of_dispatch {accounts : AccountMap} {name : String} {args : Option JsonMap}
    {state : AccountState} {refined : ToolName}
    (h : dispatchCallTool accounts name args = .ok (.accountScoped state refined)) :
    ∃ wire, postureStage state.matrix name args =
      match state.matrix.check refined with
      | .error err => .denied err
      | .ok () => .admitted wire refined := by
  unfold dispatchCallTool at h
  rcases hparse : parseWireName name with err | ⟨account, wire⟩
  · rw [hparse] at h
    cases h
  · simp only [hparse] at h
    split at h
    · cases h
    · cases hinfra : (refineToolName wire args).isInfrastructure with
      | true =>
          rw [if_pos hinfra] at h
          split at h <;> cases h
      | false =>
          rw [hinfra, if_neg Bool.false_ne_true] at h
          split at h
          · cases h
          · cases h
            refine ⟨wire, ?_⟩
            unfold postureStage
            rw [hparse]
            cases hcheck : state.matrix.check (refineToolName wire args) with
            | error err => simp [hinfra, hcheck]
            | ok => simp [hinfra, hcheck]

/-! ## Decoding one name -/

theorem splitOnce_join {a b : String} {c : Char} (h : c ∉ a.toList) :
    splitOnce (a ++ String.singleton c ++ b) c = some (a, b) := by
  have hchars : (a ++ String.singleton c ++ b).toList = a.toList ++ c :: b.toList := by simp
  have hall : ∀ x ∈ a.toList, (x != c) = true := by
    intro x hx
    have hne : x ≠ c := fun heq => h (heq ▸ hx)
    simpa using hne
  have hdrop : (a.toList ++ c :: b.toList).dropWhile (· != c) = c :: b.toList := by
    rw [List.dropWhile_append_of_pos hall]
    simp
  have htake : (a.toList ++ c :: b.toList).takeWhile (· != c) = a.toList := by
    rw [List.takeWhile_append_of_pos hall]
    simp
  simp only [splitOnce, hchars, hdrop, htake, String.ofList_toList]

/-- No tool name is a namespaced tool name: what follows the first dot of a
    dotted capability is never a tool. -/
theorem fromStr_namespaced (id : AccountId) (tool : ToolName) :
    ToolName.fromStr (id.name ++ "." ++ tool.asStr) = none := by
  cases hparse : ToolName.fromStr (id.name ++ "." ++ tool.asStr) with
  | none => rfl
  | some other =>
      exfalso
      have hname := ToolName.fromStr_eq_some.mp hparse
      have hsplit : splitOnce other.asStr '.' = some (id.name, tool.asStr) := by
        rw [hname]
        exact splitOnce_join id.dot_not_mem
      have htail : ∀ other ∈ ToolName.all,
          ((splitOnce other.asStr '.').bind fun parts => ToolName.fromStr parts.2) = none := by
        decide
      have hnone := htail other (ToolName.mem_all other)
      rw [hsplit, Option.bind_some, ToolName.fromStr_asStr] at hnone
      cases hnone

theorem splitToolName_namespaced (id : AccountId) (tool : ToolName) :
    splitToolName (id.name ++ "." ++ tool.asStr) = (some id.name, tool.asStr) := by
  have hsplit : splitOnce (id.name ++ "." ++ tool.asStr) '.' = some (id.name, tool.asStr) :=
    splitOnce_join id.dot_not_mem
  simp [splitToolName, fromStr_namespaced, hsplit, id.isValidAccountPrefix_name]

theorem splitToolName_asStr (tool : ToolName) :
    splitToolName tool.asStr = (none, tool.asStr) := by
  simp [splitToolName]

@[simp] theorem isInfrastructure_refineToolName (tool : ToolName) (args : Option JsonMap) :
    (refineToolName tool args).isInfrastructure = tool.isInfrastructure := by
  rcases refineToolName_cases tool args with hsame | ⟨args', rfl, hpromotes⟩
  · rw [hsame]
  · rw [hpromotes.not_infrastructure.1, hpromotes.not_infrastructure.2]

section Decode

variable {accounts : AccountMap} {state : AccountState} {tool : ToolName}

theorem isBareSimpleToolName_infrastructure (h : tool.isInfrastructure = true) :
    isBareSimpleToolName tool.asStr = false := by
  cases tool <;> simp [ToolName.isInfrastructure] at h <;> decide

theorem dispatchCallTool_infrastructure (h : tool.isInfrastructure = true)
    (args : Option JsonMap) :
    dispatchCallTool accounts tool.asStr args =
      .ok (.infrastructure (refineToolName tool args)) := by
  have hdef : (toolDefParts tool).isSome = true := by
    cases tool <;> simp [ToolName.isInfrastructure] at h <;> rfl
  have hparse : parseWireName tool.asStr = .ok (none, tool) :=
    parseWireName_eq_ok.mpr ⟨splitToolName_asStr tool, hdef⟩
  simp [dispatchCallTool, hparse, validateBareToolNamespace,
    isBareSimpleToolName_infrastructure h, h]

/-- In the legacy deployment a bare account-scoped name auto-selects. -/
theorem dispatchCallTool_bare (hlegacy : accounts.isLegacySingleAccount = true)
    (hstates : accounts.states = [state]) (hdef : (toolDefParts tool).isSome = true)
    (htool : tool.isInfrastructure = false) (args : Option JsonMap) :
    dispatchCallTool accounts tool.asStr args =
      .ok (.accountScoped state (refineToolName tool args)) := by
  have hparse : parseWireName tool.asStr = .ok (none, tool) :=
    parseWireName_eq_ok.mpr ⟨splitToolName_asStr tool, hdef⟩
  simp [dispatchCallTool, hparse, validateBareToolNamespace, hlegacy, htool,
    AccountMap.resolve, hstates]

theorem parseWireName_namespaced (id : AccountId) (hdef : (toolDefParts tool).isSome = true) :
    parseWireName (id.name ++ "." ++ tool.asStr) = .ok (some id.name, tool) :=
  parseWireName_eq_ok.mpr ⟨splitToolName_namespaced id tool, hdef⟩

theorem isBareSimpleToolName_namespaced (id : AccountId) (tool : ToolName) :
    isBareSimpleToolName (id.name ++ "." ++ tool.asStr) = false := by
  have hdot : (id.name ++ "." ++ tool.asStr).toList.contains '.' = true := by simp
  rw [isBareSimpleToolName, if_pos hdot]

theorem dispatchCallTool_namespaced (hmem : state ∈ accounts.states)
    (hdef : (toolDefParts tool).isSome = true) (htool : tool.isInfrastructure = false)
    (args : Option JsonMap) :
    dispatchCallTool accounts (state.id.name ++ "." ++ tool.asStr) args =
      .ok (.accountScoped state (refineToolName tool args)) := by
  simp [dispatchCallTool, parseWireName_namespaced state.id hdef, validateBareToolNamespace,
    isBareSimpleToolName_namespaced, htool, AccountMap.resolve_name hmem]

/-- A namespaced infrastructure tool is refused. -/
theorem dispatchCallTool_namespaced_infrastructure (id : AccountId)
    (hdef : (toolDefParts tool).isSome = true) (htool : tool.isInfrastructure = true)
    (args : Option JsonMap) :
    dispatchCallTool accounts (id.name ++ "." ++ tool.asStr) args =
      .error (.protocol ⟨INVALID_PARAMS, "infrastructure tools cannot be namespaced"⟩) := by
  simp [dispatchCallTool, parseWireName_namespaced id hdef, validateBareToolNamespace,
    isBareSimpleToolName_namespaced, htool]

end Decode

/-! ## Catalogue and decoder together

`catalogEntries` is the catalogue with each entry paired with what it was
advertised for. -/

def catalogEntries (accounts : AccountMap) (active : Option String) : List (Target × Tool) :=
  let infrastructure := [ToolName.useAccount, .listAccounts].filterMap fun tool =>
    (TOOL_DEFS tool).map fun baseDef => (Target.infrastructure tool, baseDef)
  if 1 < accounts.states.length && active.isNone then infrastructure
  else
    infrastructure ++ accounts.states.flatMap fun state =>
      if active.any (· != state.id.name) then []
      else
        state.matrix.advertised.filterMap fun tool =>
          (TOOL_DEFS tool).map fun baseDef =>
            (Target.accountScoped state tool,
              buildAdvertisedTool baseDef state.id.name (!accounts.isLegacySingleAccount))

theorem catalogEntries_tools (accounts : AccountMap) (active : Option String) :
    (catalogEntries accounts active).map Prod.snd = buildToolCatalogFor accounts active := by
  have hinfra : (([ToolName.useAccount, .listAccounts].filterMap fun tool =>
      (TOOL_DEFS tool).map fun baseDef => (Target.infrastructure tool, baseDef)).map Prod.snd) =
        [ToolName.useAccount, .listAccounts].filterMap TOOL_DEFS := rfl
  simp only [catalogEntries, buildToolCatalogFor]
  split
  · exact hinfra
  · rw [List.map_append, hinfra, List.map_flatMap]
    congr 1
    apply List.flatMap_congr
    intro state _
    split
    · rfl
    · rw [List.map_filterMap]
      simp only [Option.map_map, Function.comp_def]

/-- Accounts whose tools the catalogue shows. -/
def Listed (accounts : AccountMap) (active : Option String) (state : AccountState) : Prop :=
  state ∈ accounts.states ∧ (accounts.states.length ≤ 1 ∨ active.isSome = true) ∧
    ∀ name, active = some name → name = state.id.name

theorem any_ne_eq_false {active : Option String} {name : String} :
    active.any (· != name) = false ↔ ∀ a, active = some a → a = name := by
  cases active with
  | none => simp
  | some a => simp

theorem mem_infrastructureEntries {entry : Target × Tool} :
    (entry ∈ [ToolName.useAccount, .listAccounts].filterMap fun tool =>
      (TOOL_DEFS tool).map fun baseDef => (Target.infrastructure tool, baseDef)) ↔
      ∃ tool baseDef, tool.isInfrastructure = true ∧ TOOL_DEFS tool = some baseDef ∧
        entry = (.infrastructure tool, baseDef) := by
  have hmem : ∀ tool : ToolName,
      tool ∈ [ToolName.useAccount, .listAccounts] ↔ tool.isInfrastructure = true := by
    intro tool
    cases tool <;> decide
  simp only [List.mem_filterMap, hmem, Option.map_eq_some_iff]
  constructor
  · rintro ⟨tool, htool, baseDef, hdef, rfl⟩
    exact ⟨tool, baseDef, htool, hdef, rfl⟩
  · rintro ⟨tool, baseDef, htool, hdef, rfl⟩
    exact ⟨tool, htool, baseDef, hdef, rfl⟩

theorem mem_catalogEntries {accounts : AccountMap} {active : Option String}
    {entry : Target × Tool} :
    entry ∈ catalogEntries accounts active ↔
      (∃ tool baseDef, tool.isInfrastructure = true ∧ TOOL_DEFS tool = some baseDef ∧
        entry = (.infrastructure tool, baseDef)) ∨
      ∃ state tool baseDef, Listed accounts active state ∧ state.matrix.allows tool = true ∧
        TOOL_DEFS tool = some baseDef ∧
        entry = (.accountScoped state tool,
          buildAdvertisedTool baseDef state.id.name (!accounts.isLegacySingleAccount)) := by
  simp only [catalogEntries]
  by_cases hhidden : (decide (1 < accounts.states.length) && active.isNone) = true
  · -- several accounts, none active: nothing but infrastructure
    rw [if_pos hhidden, mem_infrastructureEntries]
    simp only [Bool.and_eq_true, decide_eq_true_eq, Option.isNone_iff_eq_none] at hhidden
    constructor
    · exact Or.inl
    · rintro (h | ⟨state, tool, baseDef, ⟨-, hshown, -⟩, -⟩)
      · exact h
      · rw [hhidden.2] at hshown
        rcases hshown with hshort | hactive
        · omega
        · cases hactive
  · rw [if_neg hhidden, List.mem_append, mem_infrastructureEntries]
    have hshown : accounts.states.length ≤ 1 ∨ active.isSome = true := by
      cases active with
      | none => left; simpa using hhidden
      | some a => right; rfl
    apply or_congr Iff.rfl
    simp only [List.mem_flatMap]
    constructor
    · rintro ⟨state, hmem, hentry⟩
      cases hother : active.any (· != state.id.name) with
      | true =>
          rw [if_pos hother] at hentry
          cases hentry
      | false =>
          rw [hother] at hentry
          simp only [Bool.false_eq_true, if_false, List.mem_filterMap,
            EffectiveMatrix.mem_advertised, Option.map_eq_some_iff] at hentry
          obtain ⟨tool, hallows, baseDef, hdef, rfl⟩ := hentry
          exact ⟨state, tool, baseDef, ⟨hmem, hshown, any_ne_eq_false.mp hother⟩, hallows, hdef,
            rfl⟩
    · rintro ⟨state, tool, baseDef, ⟨hmem, -, hactive⟩, hallows, hdef, rfl⟩
      refine ⟨state, hmem, ?_⟩
      rw [any_ne_eq_false.mpr hactive]
      simp only [Bool.false_eq_true, if_false, List.mem_filterMap,
        EffectiveMatrix.mem_advertised, Option.map_eq_some_iff]
      exact ⟨tool, hallows, baseDef, hdef, rfl⟩

/-- No target is advertised twice. -/
theorem nodup_catalogTargets (accounts : AccountMap) (active : Option String) :
    ((catalogEntries accounts active).map Prod.fst).Nodup := by
  have hinfra : (([ToolName.useAccount, .listAccounts].filterMap fun tool =>
      (TOOL_DEFS tool).map fun baseDef => (Target.infrastructure tool, baseDef)).map Prod.fst) =
        [.infrastructure .useAccount, .infrastructure .listAccounts] := rfl
  simp only [catalogEntries]
  split
  · rw [hinfra]
    simp
  · rw [List.map_append, hinfra, List.map_flatMap, List.nodup_append]
    refine ⟨by simp, List.nodup_flatMap.mpr ⟨?_, ?_⟩, ?_⟩
    · intro state _
      split
      · exact List.nodup_nil
      · rw [List.map_filterMap]
        apply List.Nodup.filterMap _ state.matrix.nodup_advertised
        intro tool tool' target h h'
        simp only [Option.map_map, Option.mem_def, Option.map_eq_some_iff] at h h'
        obtain ⟨baseDef, _, htarget⟩ := h
        obtain ⟨baseDef', _, htarget'⟩ := h'
        rw [← htarget'] at htarget
        exact (Target.accountScoped.inj htarget).2
    · apply accounts.sorted.imp
      intro state state' hlt target h h'
      -- the targets of one account carry that account
      have howner : ∀ {state : AccountState} {target : Target},
          target ∈ ((if active.any (· != state.id.name) then [] else
            state.matrix.advertised.filterMap fun tool => (TOOL_DEFS tool).map fun baseDef =>
              (Target.accountScoped state tool, buildAdvertisedTool baseDef state.id.name
                (!accounts.isLegacySingleAccount))).map Prod.fst) →
            ∃ tool, target = .accountScoped state tool := by
        intro state target h
        split at h
        · cases h
        · simp only [List.map_filterMap, Option.map_map, List.mem_filterMap,
            Option.map_eq_some_iff] at h
          obtain ⟨tool, -, -, -, rfl⟩ := h
          exact ⟨tool, rfl⟩
      obtain ⟨tool, rfl⟩ := howner h
      obtain ⟨tool', heq⟩ := howner h'
      cases heq
      exact String.lt_irrefl _ hlt
    · intro target hleft target' hright heq
      subst heq
      simp only [List.mem_flatMap, List.mem_map] at hright
      obtain ⟨state, -, entry, hentry, rfl⟩ := hright
      split at hentry
      · cases hentry
      · simp only [List.mem_filterMap, Option.map_eq_some_iff] at hentry
        obtain ⟨tool, -, baseDef, -, rfl⟩ := hentry
        simp at hleft

/-- The refinement that dispatch applies on the way. -/
def Target.refine (args : Option JsonMap) : Target → Target
  | .infrastructure tool => .infrastructure (refineToolName tool args)
  | .accountScoped state tool => .accountScoped state (refineToolName tool args)

def RoutesBack (accounts : AccountMap) (active : Option String) : Prop :=
  ∀ entry ∈ catalogEntries accounts active, ∀ args,
    dispatchCallTool accounts entry.2.name args = .ok (entry.1.refine args)

/-- A name that routes back to its target cannot be the name of two targets. -/
theorem nodup_names_of_routesBack {accounts : AccountMap} {active : Option String}
    (h : RoutesBack accounts active) :
    ((buildToolCatalogFor accounts active).map Tool.name).Nodup := by
  rw [← catalogEntries_tools, List.map_map]
  apply List.Nodup.of_map fun name => dispatchCallTool accounts name none
  have hdecode : ((catalogEntries accounts active).map (Tool.name ∘ Prod.snd)).map
        (fun name => dispatchCallTool accounts name none) =
      ((catalogEntries accounts active).map Prod.fst).map Except.ok := by
    rw [List.map_map, List.map_map]
    apply List.map_congr_left
    intro entry hentry
    have hroute := h entry hentry none
    simp only [Function.comp_apply, hroute]
    cases entry.1 <;> rfl
  rw [hdecode]
  apply (nodup_catalogTargets accounts active).map
  intro target target' heq
  exact Except.ok.inj heq

theorem toolDef_name {tool : ToolName} {baseDef : Tool} (h : TOOL_DEFS tool = some baseDef) :
    baseDef.name = tool.asStr ∧ (toolDefParts tool).isSome = true := by
  simp only [TOOL_DEFS, Option.map_eq_some_iff] at h
  obtain ⟨title, htitle, rfl⟩ := h
  exact ⟨rfl, by simp [htitle]⟩

theorem routesBack_of_no_allow {accounts : AccountMap} {active : Option String}
    (h : ∀ state tool, Listed accounts active state → tool.isInfrastructure = true →
      state.overrides tool ≠ some .allow) : RoutesBack accounts active := by
  intro entry hentry args
  rcases mem_catalogEntries.mp hentry with
    ⟨tool, baseDef, htool, hdef, rfl⟩ | ⟨state, tool, baseDef, hlisted, hallows, hdef, rfl⟩
  · obtain ⟨hname, -⟩ := toolDef_name hdef
    simp only [hname, Target.refine]
    exact dispatchCallTool_infrastructure htool args
  · obtain ⟨hname, hsome⟩ := toolDef_name hdef
    have htool : tool.isInfrastructure = false := by
      by_contra hinfra
      rw [Bool.not_eq_false] at hinfra
      rw [AccountState.matrix, EffectiveMatrix.allows_build,
        EffectiveMatrix.effective_infrastructure hinfra] at hallows
      exact h state tool hlisted hinfra hallows
    cases hlegacy : accounts.isLegacySingleAccount with
    | true =>
        obtain ⟨sole, hstates, -⟩ := AccountMap.isLegacySingleAccount_iff.mp hlegacy
        have hsole : state = sole := by simpa [hstates] using hlisted.1
        subst hsole
        simp only [buildAdvertisedTool, Bool.not_true, Bool.not_false, if_true, hname,
          Target.refine]
        exact dispatchCallTool_bare hlegacy hstates hsome htool args
    | false =>
        simp only [buildAdvertisedTool, Bool.not_false, Bool.not_true, Bool.false_eq_true,
          if_false, hname, Target.refine]
        exact dispatchCallTool_namespaced hlisted.1 hsome htool args

/-- **Catalogue and dispatch are inverse, infrastructure overrides apart.**  The
    advertised names are pairwise distinct and each one, sent back with any
    arguments, reaches the account and tool it was advertised for, exactly when
    no account shown in the catalogue carries an `allow` override for
    `use_account` or `list_accounts`. -/
theorem catalog_round_trips_iff (accounts : AccountMap) (active : Option String) :
    (((buildToolCatalogFor accounts active).map Tool.name).Nodup ∧
        RoutesBack accounts active) ↔
      ∀ state tool, Listed accounts active state → tool.isInfrastructure = true →
        state.overrides tool ≠ some .allow := by
  constructor
  · rintro ⟨-, hroutes⟩ state tool hlisted hinfra hallow
    obtain ⟨baseDef, hdef⟩ : ∃ baseDef, TOOL_DEFS tool = some baseDef := by
      cases tool <;> simp [ToolName.isInfrastructure] at hinfra <;> exact ⟨_, rfl⟩
    obtain ⟨hname, hsome⟩ := toolDef_name hdef
    have hallows : state.matrix.allows tool = true := by
      rw [AccountState.matrix, EffectiveMatrix.allows_build,
        EffectiveMatrix.effective_infrastructure hinfra]
      exact hallow
    have hroute := hroutes _ (mem_catalogEntries.mpr
      (Or.inr ⟨state, tool, baseDef, hlisted, hallows, hdef, rfl⟩)) none
    cases hlegacy : accounts.isLegacySingleAccount with
    | true =>
        -- the bare name is the infrastructure tool's own
        rw [hlegacy] at hroute
        simp only [buildAdvertisedTool, Bool.not_true, Bool.not_false, if_true, hname] at hroute
        rw [dispatchCallTool_infrastructure hinfra] at hroute
        cases hroute
    | false =>
        rw [hlegacy] at hroute
        simp only [buildAdvertisedTool, Bool.not_false, Bool.not_true, Bool.false_eq_true,
          if_false, hname] at hroute
        rw [dispatchCallTool_namespaced_infrastructure state.id hsome hinfra] at hroute
        cases hroute
  · intro h
    have hroutes := routesBack_of_no_allow h
    exact ⟨nodup_names_of_routesBack hroutes, hroutes⟩

def home : AccountState where
  id := ⟨"home", by decide, by decide, List.all_eq_true.mp (by decide)⟩
  posture := .readonly
  overrides := fun _ => none

/-- An account whose overrides allow `list_accounts`. -/
def work : AccountState where
  id := ⟨"work", by decide, by decide, List.all_eq_true.mp (by decide)⟩
  posture := .readonly
  overrides := fun tool => if tool = .listAccounts then some .allow else none

def homeAndWork : AccountMap where
  states := [home, work]
  sorted := List.pairwise_pair.mpr (by decide)

/-- With `work` active the catalogue shows `work.list_accounts`, which dispatch
    refuses. -/
theorem advertised_infrastructure_refused :
    ¬ ∀ (accounts : AccountMap) (active : Option String),
      ((buildToolCatalogFor accounts active).map Tool.name).Nodup ∧
        RoutesBack accounts active := by
  intro hall
  have hlisted : Listed homeAndWork (some "work") work := by
    refine ⟨by simp [homeAndWork], Or.inr rfl, ?_⟩
    intro name hname
    cases hname
    rfl
  have hallows : work.matrix.allows .listAccounts = true := by
    rw [AccountState.matrix, EffectiveMatrix.allows_build]
    rfl
  have hroute := (hall homeAndWork (some "work")).2 _ (mem_catalogEntries.mpr
    (Or.inr ⟨work, .listAccounts, _, hlisted, hallows, rfl, rfl⟩)) none
  have hrefused : dispatchCallTool homeAndWork
      (work.id.name ++ "." ++ ToolName.listAccounts.asStr) none = .error _ :=
    dispatchCallTool_namespaced_infrastructure work.id rfl rfl none
  have hcontra := hrefused.symm.trans hroute
  cases hcontra

end RustyImap
