import RustyImap.AuditLog
import RustyImap.LabelledRuns
import RustyImap.ToolRefinement

/-!
# The inbound bridge and the lifecycle flag

`validate_inbound` (`rimap-server/src/mcp/wire_validator/inbound.rs`) with the
envelope check of `wire_validator/envelope.rs` and the error line of
`mcp/preinit.rs`.

Two decisions are made on one line: rmcp's own parse moves the lifecycle flag,
and `validate` says whether rmcp gets to see the line.  rmcp and `serde_json` are
outside the repository; `Codec` lists the four uses made of them, each any
function.  Reads and writes succeed here.
-/

namespace RustyImap.InboundBridge

open RustyImap.LabelledRuns RustyImap.SeparatedLines
open RustyImap.AuditLog (Bytes LF CR utf8)

/-! ## What is used of `serde_json` and of rmcp -/

/-- One map level, or anything else, as a serde visitor sees it. -/
inductive Level where
  | map (keys : List String)
  | other
deriving DecidableEq, Repr

/-- The root of a line as `TopAndErrorDupCheck` sees it. -/
inductive Shape where
  | map (entries : List (String × Level))
  | other
deriving DecidableEq, Repr

inductive RequestKind where
  | initializeRequest
  | pingRequest
  | other
deriving DecidableEq, Repr

/-- `JsonRpcRequest<ClientRequest>`, with the metadata keys of 2026-07-28 that the
    request lacks. -/
structure ClientRequest where
  id : Json
  kind : RequestKind
  missingRequiredKeys : List String

inductive ClientJsonRpcMessage where
  | request (req : ClientRequest)
  | notification
  | response
  | error

structure Codec where
  fromStr : String → Option Json                     -- `from_str::<Value>`
  deserialize : String → Option Shape                -- `deserialize_any` of a streaming reader
  toText : Json → String                             -- `Value::to_string`
  parseMessage : String → Option ClientJsonRpcMessage    -- `from_str::<ClientJsonRpcMessage>`

/-- Compact output is one line: `serde_json` escapes control characters. -/
def Codec.Compact (codec : Codec) : Prop := ∀ v, '\n' ∉ (codec.toText v).toList

end RustyImap.InboundBridge

namespace RustyImap.Json

def asObject : Json → Option (List (String × Json))
  | object fields => some fields
  | _ => none

def isString (v : Json) : Bool := v.asStr.isSome

def isNull : Json → Bool
  | null => true
  | _ => false

/-- A run of digits, as `serde_json` reads an integer literal. -/
def digits (s : List Char) : Option Nat :=
  if s ≠ [] && s.all Char.isDigit then
    some (s.foldl (fun n c => 10 * n + (c.toNat - '0'.toNat)) 0)
  else none

/-- `Value::as_i64`.  A literal with a fraction or an exponent, one that is out of
    range and `-0` are floats. -/
def asI64 : Json → Option Int
  | number literal =>
      match literal.toList with
      | '-' :: rest =>
          match digits rest with
          | some n => if 0 < n && n ≤ 9223372036854775808 then some (-n) else none
          | none => none
      | rest =>
          match digits rest with
          | some n => if n ≤ 9223372036854775807 then some n else none
          | none => none
  | _ => none

end RustyImap.Json

namespace RustyImap.InboundBridge

open RustyImap.LabelledRuns RustyImap.SeparatedLines
open RustyImap.AuditLog (Bytes LF CR utf8)

/-- `Map::get`. -/
def get (obj : List (String × Json)) (key : String) : Option Json :=
  (obj.find? fun entry => entry.1 == key).map Prod.snd

/-! ## Envelope validation -/

structure ErrorEnvelope where
  code : Int
  message : String
  id : Json

inductive ValidationOutcome where
  | forward
  | skip
  | reject (env : ErrorEnvelope)

def isForwardableId (v : Json) : Bool := v.isString || v.asI64.isSome

def isValidParams (v : Json) : Bool :=
  match v.asObject with
  | some obj =>
      match get obj "_meta" with
      | none => true
      | some v => v.asObject.isSome || v.isNull
  | none => v.isNull

def isWellFormedError (v : Json) : Bool :=
  match v.asObject with
  | none => false
  | some obj =>
      let codeOk := ((get obj "code").bind Json.asI64).any fun n =>
        -2147483648 ≤ n && n ≤ 2147483647
      let messageOk := (get obj "message").any Json.isString
      codeOk && messageOk

def extractId (obj : List (String × Json)) : Json :=
  match get obj "id" with
  | some v => if isForwardableId v then v else .null
  | none => .null

def parseError : ErrorEnvelope := ⟨-32700, "Parse error", .null⟩

def invalidRequest (id : Json) : ErrorEnvelope := ⟨-32600, "Invalid Request", id⟩

/-- `OneLevelDupCheck`: a key seen before, of those that count. -/
def oneLevelDupCheck (only : Option String) : Level → Bool
  | .other => false
  | .map keys =>
      (keys.foldl (fun (seen, dup) key =>
        let counted := only.all fun only => only == key
        (key :: seen, dup || (seen.contains key && counted))) ([], false)).2

structure DuplicateKeys where
  envelope : Bool
  paramsMeta : Bool
deriving DecidableEq, Repr

/-- `TopAndErrorDupCheck`. -/
def topAndErrorDupCheck : Shape → DuplicateKeys
  | .other => ⟨false, false⟩
  | .map entries =>
      (entries.foldl (fun (seen, found) (key, level) =>
        let found : DuplicateKeys :=
          if key = "error" then
            { found with envelope := found.envelope || oneLevelDupCheck none level }
          else if key = "params" then
            { found with
              paramsMeta := found.paramsMeta || oneLevelDupCheck (some "_meta") level }
          else found
        (key :: seen, if seen.contains key then { found with envelope := true } else found))
        (([] : List String), ⟨false, false⟩)).2

def scanDuplicateKeys (codec : Codec) (line : String) : DuplicateKeys :=
  match codec.deserialize line with
  | some shape => topAndErrorDupCheck shape
  | none => ⟨false, false⟩

/-- `line.trim().is_empty()`. -/
def isBlank (line : String) : Bool := (trim line.toList).isEmpty

/-- The `match` that `validate` ends with. -/
def validateShape (obj : List (String × Json)) (idPresentAndValid paramsOk : Bool) :
    ValidationOutcome :=
  match get obj "method", get obj "result", get obj "error" with
  | some m, none, none =>
      if m.isString && idPresentAndValid && paramsOk then .forward
      else if m.isString && !idPresentAndValid && paramsOk then .forward
      else .reject (invalidRequest (extractId obj))
  | none, some _, none =>
      if idPresentAndValid then .forward else .reject (invalidRequest (extractId obj))
  | none, none, some err =>
      if idPresentAndValid && isWellFormedError err then .forward
      else .reject (invalidRequest (extractId obj))
  | _, _, _ => .reject (invalidRequest (extractId obj))

def validate (codec : Codec) (line : String) : ValidationOutcome :=
  if isBlank line then .skip
  else
    let duplicates := scanDuplicateKeys codec line
    if duplicates.envelope then .reject (invalidRequest .null)
    else
      match codec.fromStr line with
      | none => .reject parseError
      | some parsed =>
          match parsed.asObject with
          | none => .reject (invalidRequest .null)
          | some obj =>
              if (get obj "jsonrpc").bind Json.asStr ≠ some "2.0" then
                .reject (invalidRequest (extractId obj))
              else
                let paramsOk := !duplicates.paramsMeta && (get obj "params").all isValidParams
                match get obj "id" with
                | none => validateShape obj false paramsOk
                | some v =>
                    if isForwardableId v then validateShape obj true paramsOk
                    else .reject (invalidRequest .null)

/-- The two error bodies of `synthesize_error_line`. -/
def errorBody (env : ErrorEnvelope) : Json :=
  let error : Json :=
    .object [("code", .number (toString env.code)), ("message", .string env.message)]
  if env.id.isNull then .object [("jsonrpc", .string "2.0"), ("error", error)]
  else .object [("jsonrpc", .string "2.0"), ("id", env.id), ("error", error)]

def synthesizeErrorLine (codec : Codec) (env : ErrorEnvelope) : String :=
  codec.toText (errorBody env) ++ "\n"

/-- `NOT_INITIALIZED` with its message. -/
def notInitialized (id : Json) : ErrorEnvelope :=
  ⟨-32002, "Server not initialized: send `initialize` before any other request", id⟩

/-- The envelope of `synthesize_pre_init_error_envelope`, which keeps its `id`. -/
def preInitBody (id : Json) : Json :=
  let env := notInitialized id
  .object [("jsonrpc", .string "2.0"), ("id", id),
    ("error", .object
      [("code", .number (toString env.code)), ("message", .string env.message)])]

def synthesizePreInitErrorEnvelope (codec : Codec) : ClientJsonRpcMessage → Option String
  | .request req => some (codec.toText (preInitBody req.id) ++ "\n")
  | .notification | .response | .error => none

/-! ## The bridge -/

structure Bridge where
  initialized : Bool
  preInitIntercepted : Bool
  forwarded : List Bytes       -- what has been written to rmcp, one buffer a line
  stdout : List String         -- what has been written to stdout, one text a line
  returned : Bool

def Bridge.init : Bridge := ⟨false, false, [], [], false⟩

/-- `buf` without its line feed and the carriage return before it. -/
def trimmed (buf : Bytes) : Bytes :=
  let buf := if buf.getLast? = some LF then buf.dropLast else buf
  if buf.getLast? = some CR then buf.dropLast else buf

/-- `std::str::from_utf8` of the trimmed line. -/
def lineForValidation (buf : Bytes) : Option String :=
  String.fromUTF8? (trimmed buf).toByteArray

def ClientRequest.completeMetadata (req : ClientRequest) : Bool := req.missingRequiredKeys.isEmpty

/-- The `match validate(..)` of the loop. -/
def deliver (codec : Codec) (buf : Bytes) (line : String) (modernFirstRequest : Bool)
    (s : Bridge) : Bridge :=
  match validate codec line with
  | .forward =>
      { s with
        initialized := s.initialized || modernFirstRequest
        forwarded := s.forwarded ++ [buf] }
  | .skip => s
  | .reject env => { s with stdout := s.stdout ++ [synthesizeErrorLine codec env] }

/-- One iteration of the loop of `validate_inbound`. -/
def handleLine (codec : Codec) (buf : Bytes) (s : Bridge) : Bridge :=
  match lineForValidation buf with
  | none => { s with stdout := s.stdout ++ [synthesizeErrorLine codec parseError] }
  | some line =>
      if s.initialized then deliver codec buf line false s
      else
        match codec.parseMessage line with
        | some (.request req) =>
            let isInitialize := req.kind == .initializeRequest
            let isPing := req.kind == .pingRequest
            let modernFirstRequest := !isInitialize && !isPing && req.completeMetadata
            if !isInitialize && !isPing && !req.completeMetadata then
              { s with
                stdout := s.stdout ++
                  (synthesizePreInitErrorEnvelope codec (.request req)).toList
                preInitIntercepted := true
                returned := true }
            else
              let s := if isInitialize then { s with initialized := true } else s
              deliver codec buf line modernFirstRequest s
        | _ => deliver codec buf line false s

/-- A line that is read; none is once the function has returned. -/
def step (codec : Codec) (s : Bridge) (buf : Bytes) : Option Bridge :=
  if s.returned then some s else some (handleLine codec buf s)

/-! ## What the bridge is for -/

inductive Treatment where
  | forwarded
  | skipped
  | answered
  | intercepted
deriving DecidableEq, Repr

/-- What a treatment of the line `buf` does, between two states of the loop. -/
def Treated (codec : Codec) (buf : Bytes) (s t : Bridge) : Treatment → Prop
  | .forwarded => t.forwarded = s.forwarded ++ [buf] ∧ t.stdout = s.stdout ∧ t.returned = false
  | .skipped =>
      (∃ line, lineForValidation buf = some line ∧ isBlank line = true) ∧
        t.forwarded = s.forwarded ∧ t.stdout = s.stdout ∧ t.returned = false
  | .answered =>
      t.forwarded = s.forwarded ∧ t.returned = false ∧
        ∃ env, IsLine '\n' (synthesizeErrorLine codec env).toList ∧
          t.stdout = s.stdout ++ [synthesizeErrorLine codec env]
  | .intercepted =>
      t.forwarded = s.forwarded ∧ t.returned = true ∧ t.preInitIntercepted = true ∧
        (t.stdout = s.stdout ∨ ∃ msg line, synthesizePreInitErrorEnvelope codec msg = some line ∧
          IsLine '\n' line.toList ∧ t.stdout = s.stdout ++ [line])

/-- A line that rmcp reads as an `initialize` request or as one with complete
    metadata. -/
def opens (codec : Codec) (buf : Bytes) : Bool :=
  match (lineForValidation buf).bind codec.parseMessage with
  | some (.request req) => req.kind == .initializeRequest || req.completeMetadata
  | _ => false

/-- A request that opens the session has been forwarded. -/
def Bridge.opened (codec : Codec) (s : Bridge) : Bool := s.forwarded.any (opens codec)

/-- The bridge on the lines of stdin: every line is treated in one way, nothing
    follows an interception, and the flag is set by forwarded requests only. -/
structure Faithful (codec : Codec) (lines : List Bytes) : Prop where
  oneWay : ∀ before buf after s t, lines = before ++ buf :: after →
    run (step codec) .init before = some s → s.returned = false → step codec s buf = some t →
      ∃! how, Treated codec buf s t how
  closed : ∀ before after s t, lines = before ++ after →
    run (step codec) .init before = some s → s.returned = true →
      run (step codec) .init lines = some t → t = s
  armed : ∀ before after s, lines = before ++ after →
    run (step codec) .init before = some s → s.initialized = true → s.opened codec = true

def forwards (codec : Codec) (line : String) : Bool :=
  match validate codec line with
  | .forward => true
  | .skip | .reject _ => false

/-- rmcp reads the line as an `initialize` request, and `validate` does not let it
    through. -/
def rejectedInitialize (codec : Codec) (line : String) : Bool :=
  match codec.parseMessage line with
  | some (.request req) => req.kind == .initializeRequest && !forwards codec line
  | _ => false

/-- A rejected `initialize` request while nothing has opened the session. -/
def disarms (codec : Codec) (s : Bridge) (buf : Bytes) : Bool :=
  !s.returned && !s.initialized && !s.opened codec &&
    (lineForValidation buf).any (rejectedInitialize codec)

/-! ## One line -/

section

variable {codec : Codec} {buf : Bytes} {line : String} {s t : Bridge}

theorem isLine_append_newline {text : String} (h : '\n' ∉ text.toList) :
    IsLine '\n' (text ++ "\n").toList :=
  ⟨text.toList, h, by simp⟩

theorem validateShape_ne_skip (obj : List (String × Json)) (idOk paramsOk : Bool) :
    validateShape obj idOk paramsOk ≠ .skip := by
  unfold validateShape
  split
  · split
    · intro h
      cases h
    · split <;> (intro h; cases h)
  · split <;> (intro h; cases h)
  · split <;> (intro h; cases h)
  · intro h
    cases h

theorem isBlank_of_skip (h : validate codec line = .skip) : isBlank line = true := by
  by_contra hblank
  simp only [validate, hblank] at h
  split at h
  · contradiction
  · split at h
    · cases h
    · split at h
      · cases h
      · split at h
        · cases h
        · split at h
          · cases h
          · split at h
            · exact validateShape_ne_skip _ _ _ h
            · split at h
              · exact validateShape_ne_skip _ _ _ h
              · cases h

/-- The flag that `modern_first_request` records. -/
def ClientRequest.modernFirst (req : ClientRequest) : Bool :=
  !(req.kind == .initializeRequest) && !(req.kind == .pingRequest) && req.completeMetadata

/-- The four ways through one iteration. -/
inductive Handled (codec : Codec) (buf : Bytes) (s : Bridge) : Bridge → Prop where
  | garbled (hline : lineForValidation buf = none) :
      Handled codec buf s { s with stdout := s.stdout ++ [synthesizeErrorLine codec parseError] }
  | intercepted (line : String) (req : ClientRequest) (hline : lineForValidation buf = some line)
      (hparse : codec.parseMessage line = some (.request req))
      (hkind : (req.kind == .initializeRequest) = false) :
      Handled codec buf s { s with
        stdout := s.stdout ++ [codec.toText (preInitBody req.id) ++ "\n"]
        preInitIntercepted := true
        returned := true }
  | plain (line : String) (hline : lineForValidation buf = some line)
      (hplain : s.initialized = true ∨ ∀ req, codec.parseMessage line ≠ some (.request req)) :
      Handled codec buf s (deliver codec buf line false s)
  | first (line : String) (req : ClientRequest) (hline : lineForValidation buf = some line)
      (hparse : codec.parseMessage line = some (.request req)) (hinit : s.initialized = false) :
      Handled codec buf s
        (deliver codec buf line req.modernFirst
          { s with initialized := req.kind == .initializeRequest })

theorem handled_handleLine (codec : Codec) (buf : Bytes) (s : Bridge) :
    Handled codec buf s (handleLine codec buf s) := by
  unfold handleLine
  split
  · rename_i hline
    exact .garbled hline
  · rename_i line hline
    by_cases hinit : s.initialized = true
    · rw [if_pos hinit]
      exact .plain line hline (.inl hinit)
    · rw [if_neg hinit]
      have hinit : s.initialized = false := by simpa using hinit
      split
      · rename_i req hparse
        simp only
        split
        · rename_i hincomplete
          simp only [Bool.and_eq_true, Bool.not_eq_true'] at hincomplete
          exact .intercepted line req hline hparse hincomplete.1.1
        · have hflag :
              (if req.kind == .initializeRequest then { s with initialized := true } else s) =
                { s with initialized := req.kind == .initializeRequest } := by
            cases hkind : req.kind == .initializeRequest with
            | true => rfl
            | false => simp [← hinit]
          rw [hflag]
          exact .first line req hline hparse hinit
      · rename_i hother
        exact .plain line hline (.inr fun req heq => hother req heq)

/-! ## One treatment for each line -/

theorem treated_deliver (hcompact : codec.Compact) (hline : lineForValidation buf = some line)
    (hreturned : s.returned = false) (modern flag : Bool) :
    ∃ how, Treated codec buf s (deliver codec buf line modern { s with initialized := flag })
      how := by
  unfold deliver
  cases hvalid : validate codec line with
  | forward => exact ⟨.forwarded, rfl, rfl, hreturned⟩
  | skip => exact ⟨.skipped, ⟨line, hline, isBlank_of_skip hvalid⟩, rfl, rfl, hreturned⟩
  | reject env =>
      exact ⟨.answered, rfl, hreturned, env, isLine_append_newline (hcompact _), rfl⟩

theorem treated_of_handled (hcompact : codec.Compact) (hreturned : s.returned = false)
    (h : Handled codec buf s t) : ∃ how, Treated codec buf s t how := by
  cases h with
  | garbled hline =>
      exact ⟨.answered, rfl, hreturned, parseError, isLine_append_newline (hcompact _), rfl⟩
  | intercepted line req hline hparse hkind =>
      refine ⟨.intercepted, rfl, rfl, rfl, .inr ⟨.request req, _, rfl, ?_, rfl⟩⟩
      exact isLine_append_newline (hcompact _)
  | plain line hline hplain => exact treated_deliver hcompact hline hreturned false s.initialized
  | first line req hline hparse hinit => exact treated_deliver hcompact hline hreturned _ _

/-- The treatment, read off the two states. -/
def classify (s t : Bridge) : Treatment :=
  if t.returned then .intercepted
  else if t.forwarded.length ≠ s.forwarded.length then .forwarded
  else if t.stdout.length ≠ s.stdout.length then .answered
  else .skipped

theorem eq_classify {how : Treatment} (h : Treated codec buf s t how) : how = classify s t := by
  cases how with
  | forwarded =>
      obtain ⟨hforwarded, -, hreturned⟩ := h
      simp [classify, hforwarded, hreturned]
  | skipped =>
      obtain ⟨-, hforwarded, hstdout, hreturned⟩ := h
      simp [classify, hforwarded, hstdout, hreturned]
  | answered =>
      obtain ⟨hforwarded, hreturned, env, -, hstdout⟩ := h
      simp [classify, hforwarded, hstdout, hreturned]
  | intercepted =>
      obtain ⟨-, hreturned, -⟩ := h
      simp [classify, hreturned]

/-! ## The flag -/

theorem forwarded_deliver (modern : Bool) :
    (deliver codec buf line modern s).forwarded =
      s.forwarded ++ if forwards codec line then [buf] else [] := by
  unfold deliver forwards
  cases validate codec line with
  | forward => rfl
  | skip => simp
  | reject env => simp

theorem initialized_deliver (modern : Bool) :
    (deliver codec buf line modern s).initialized =
      (s.initialized || (modern && forwards codec line)) := by
  unfold deliver forwards
  cases validate codec line with
  | forward => simp
  | skip => simp
  | reject env => simp

theorem opened_deliver (modern : Bool) :
    (deliver codec buf line modern s).opened codec =
      (s.opened codec || (forwards codec line && opens codec buf)) := by
  rw [Bridge.opened, forwarded_deliver, List.any_append]
  cases forwards codec line with
  | false => simp [Bridge.opened]
  | true => simp [Bridge.opened]

theorem handled_of_step (hreturned : s.returned = false) (hstep : step codec s buf = some t) :
    Handled codec buf s t := by
  simp only [step, hreturned] at hstep
  cases hstep
  exact handled_handleLine codec buf s

/-- **The flag is set with the session open**, unless a rejected `initialize` request
    sets it. -/
theorem armed_step (s : Bridge) (buf : Bytes) (t : Bridge)
    (h : s.initialized = true → s.opened codec = true) (hok : disarms codec s buf = false)
    (hstep : step codec s buf = some t) : t.initialized = true → t.opened codec = true := by
  by_cases hreturned : s.returned = true
  · simp only [step, hreturned, if_true, Option.some.injEq] at hstep
    rwa [← hstep]
  · have hreturned : s.returned = false := by simpa using hreturned
    cases handled_of_step hreturned hstep with
    | garbled hline => exact h
    | intercepted line req hline hparse hkind => exact h
    | plain line hline hplain =>
        intro hset
        rw [initialized_deliver, Bool.false_and, Bool.or_false] at hset
        rw [opened_deliver, h hset, Bool.true_or]
    | first line req hline hparse hinit =>
        intro hset
        rw [initialized_deliver] at hset
        rw [opened_deliver]
        change (s.opened codec || (forwards codec line && opens codec buf)) = true
        by_cases hopened : s.opened codec = true
        · rw [hopened, Bool.true_or]
        · have hkept : rejectedInitialize codec line = false := by
            simpa [disarms, hreturned, hinit, hopened, hline] using hok
          simp only [rejectedInitialize, hparse] at hkept
          simp only [opens, hline, Option.bind_some, hparse]
          simp only [ClientRequest.modernFirst] at hset
          revert hkept hset
          cases req.kind == .initializeRequest <;> cases forwards codec line <;>
            cases req.completeMetadata <;> simp

/-- A rejected `initialize` request sets the flag and opens nothing. -/
theorem disarmed_step (h : disarms codec s buf = true) (hstep : step codec s buf = some t) :
    t.initialized = true ∧ t.opened codec = false := by
  simp only [disarms, Bool.and_eq_true, Bool.not_eq_true'] at h
  obtain ⟨⟨⟨hreturned, hinit⟩, hopened⟩, hrejected⟩ := h
  cases handled_of_step hreturned hstep with
  | garbled hline => simp [hline] at hrejected
  | intercepted line req hline hparse hkind =>
      simp [hline, rejectedInitialize, hparse, hkind] at hrejected
  | plain line hline hplain =>
      rcases hplain with hplain | hplain
      · rw [hinit] at hplain
        cases hplain
      · simp only [hline, Option.any_some, rejectedInitialize] at hrejected
        cases hrejected
  | first line req hline hparse hinit =>
      simp only [hline, Option.any_some, rejectedInitialize, hparse, Bool.and_eq_true,
        Bool.not_eq_true'] at hrejected
      obtain ⟨hkind, hforwards⟩ := hrejected
      refine ⟨by rw [initialized_deliver, hkind, Bool.true_or], ?_⟩
      rw [opened_deliver, hforwards, Bool.false_and, Bool.or_false]
      exact hopened

theorem exists_step (codec : Codec) (s : Bridge) (buf : Bytes) :
    ∃ t, step codec s buf = some t := by
  by_cases hreturned : s.returned = true
  · exact ⟨s, by simp [step, hreturned]⟩
  · exact ⟨handleLine codec buf s, by simp [step, hreturned]⟩

/-- Nothing is read after the function has returned. -/
theorem run_returned (hreturned : s.returned = true) (lines : List Bytes) :
    run (step codec) s lines = some s := by
  induction lines with
  | nil => rfl
  | cons buf lines ih =>
      have hstep : step codec s buf = some s := by simp [step, hreturned]
      rw [run_cons, hstep, Option.bind_some, ih]

end

/-- A rejected `initialize` request on an unopened session is a break of faith. -/
theorem never_disarmed_of_faithful {codec : Codec} {lines : List Bytes}
    (h : Faithful codec lines) :
    AllSteps (step codec) (fun s buf => disarms codec s buf = false) .init lines := by
  rw [allSteps_iff_split]
  intro before buf after hlines s hrun
  by_contra hdisarms
  obtain ⟨t, hstep⟩ := exists_step codec s buf
  obtain ⟨hset, hunopened⟩ := disarmed_step (by simpa using hdisarms) hstep
  have hopened : t.opened codec = true :=
    h.armed (before ++ [buf]) after t (by simp [hlines]) (run_concat _ hrun hstep) hset
  rw [hunopened] at hopened
  cases hopened

theorem not_faithful_of_rejected_first {codec : Codec} {buf : Bytes} {line : String}
    (hline : lineForValidation buf = some line)
    (hrejected : rejectedInitialize codec line = true) : ¬ Faithful codec [buf] := by
  intro h
  obtain ⟨hnever, -⟩ := never_disarmed_of_faithful h
  simp [disarms, hline, hrejected, Bridge.init, Bridge.opened] at hnever

theorem lineForValidation_line (text : String) (h : (utf8 text).getLast? ≠ some CR) :
    lineForValidation (utf8 text ++ [LF]) = some text := by
  have htrimmed : trimmed (utf8 text ++ [LF]) = utf8 text := by
    simp [trimmed, h]
  have hbytes : (utf8 text).toByteArray = text.toUTF8 := by
    ext1
    simp [utf8, List.data_toByteArray]
  rw [lineForValidation, htrimmed, hbytes, String.fromUTF8?]
  split
  · rfl
  · rename_i hinvalid
    exact absurd text.isValidUTF8 hinvalid

/-- An `initialize` request, and the same with a `result` beside its method. -/
def initializeText : String :=
  "\x7b\"jsonrpc\":\"2.0\",\"id\":1,\"method\":\"initialize\",\"params\":\x7b" ++
  "\"protocolVersion\":\"2025-11-25\",\"capabilities\":\x7b\x7d," ++
  "\"clientInfo\":\x7b\"name\":\"a\",\"version\":\"1\"\x7d\x7d\x7d"

def mixedText : String :=
  "\x7b\"result\":\x7b\x7d,\"jsonrpc\":\"2.0\",\"id\":1,\"method\":\"initialize\"," ++
  "\"params\":\x7b\"protocolVersion\":\"2025-11-25\",\"capabilities\":\x7b\x7d," ++
  "\"clientInfo\":\x7b\"name\":\"a\",\"version\":\"1\"\x7d\x7d\x7d"

def initializeFields : List (String × Json) :=
  [("jsonrpc", .string "2.0"), ("id", .number "1"), ("method", .string "initialize"),
   ("params", .object [("protocolVersion", .string "2025-11-25"), ("capabilities", .object []),
     ("clientInfo", .object [("name", .string "a"), ("version", .string "1")])])]

def initializeShape : List (String × Level) :=
  [("jsonrpc", .other), ("id", .other), ("method", .other),
   ("params", .map ["protocolVersion", "capabilities", "clientInfo"])]

/-- The codec on these two lines; rmcp ignores the `result` beside a method. -/
def sampleCodec : Codec where
  fromStr line :=
    if line = initializeText then some (.object initializeFields)
    else if line = mixedText then some (.object (("result", .object []) :: initializeFields))
    else none
  deserialize line :=
    if line = initializeText then some (.map initializeShape)
    else if line = mixedText then some (.map (("result", .map []) :: initializeShape))
    else none
  toText _ := "\x7b\"error\":\x7b\"code\":-32600,\"message\":\"Invalid Request\"\x7d," ++
    "\"id\":1,\"jsonrpc\":\"2.0\"\x7d"
  parseMessage line :=
    if line = initializeText || line = mixedText then
      some (.request ⟨.number "1", .initializeRequest,
        ["io.modelcontextprotocol/protocolVersion",
         "io.modelcontextprotocol/clientCapabilities"]⟩)
    else none

theorem sampleCodec_compact : sampleCodec.Compact := by
  intro v
  change '\n' ∉ (sampleCodec.toText .null).toList
  decide +kernel

theorem splitKeep_line (text : String) (h : LF ∉ utf8 text) :
    splitKeep LF (utf8 text ++ [LF]) = [utf8 text ++ [LF]] := by
  have hline : IsLine LF (utf8 text ++ [LF]) := ⟨utf8 text, h, rfl⟩
  simpa using splitKeep_line_append hline []

end RustyImap.InboundBridge
