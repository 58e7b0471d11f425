import RustyImap.AuditRecord
import RustyImap.StdioBridges

/-!
# How the server ends

`serve_mcp` of `rimap-server/src/main.rs`, with `run_service_until_done`,
`intercepted_clean_exit`, `handle_init_failure`, `join_drainer` and `emit_process_end`,
over `ValidatorSupervisor` (`mcp/wire_validator/supervisor.rs`).

The main task races rmcp against the two bridges, twice: while the session is initialized
and while it is served.  It then drains the dispatches, shuts the bridges down and says in
`process_end` how things went.  Meanwhile the bridges go on (`StdioBridges`), and a label
is a step of one of them, of rmcp or of the main task.  rmcp's `serve_server` and `waiting`
end when and how they like; nothing follows from the order in which a `select!` polls.
-/

namespace RustyImap.ServeLifecycle

open RustyImap.LabelledRuns
open RustyImap.AuditLog (Bytes LF utf8)
open RustyImap.Record (ProcessEnd)
open RustyImap.InboundBridge (ClientJsonRpcMessage Codec synthesizePreInitErrorEnvelope)
open RustyImap.SharedOutput RustyImap.SeparatedLines
open RustyImap.StdioBridges (Completion Later Sound Stdio Writer)

/-- `ServerInitializeError`, as far as `handle_init_failure` tells it apart. -/
inductive ServerInitializeError where
  | expectedInitializeRequest (msg : Option ClientJsonRpcMessage)
  | initializeFailed (code : Int)
  | other

def INVALID_PARAMS : Int := -32602

/-- The errors that `serve_mcp` may return, by their texts. -/
inductive Failure where
  | bridgesExited             -- validator bridges exited before init completed
  | bridgeDuringInit          -- validator bridge during init
  | preInitEnvelope           -- writing pre-init error envelope to stdout
  | afterPreInit              -- validator bridge after pre-init
  | afterInitFailure          -- validator bridge after init failure
  | initFailed (code : Int)   -- MCP server init failed
  | serverInit                -- MCP server init
  | bridge                    -- validator bridge
  | mcpServer                 -- MCP server error
  | bridgeShutdown            -- validator bridge shutdown
deriving DecidableEq, Repr

abbrev Outcome := Except Failure Unit

structure ServeOutcome where
  result : Outcome
  undrainedDispatches : UInt64
  drainerAbortedRecords : UInt64

inductive Rmcp where
  | initializing
  | refused (error : ServerInitializeError)
  | serving
  | ended (ok : Bool)

inductive Bridge where
  | inbound
  | outbound
deriving DecidableEq, Repr

def Bridge.writer : Bridge → Writer
  | .inbound => .inbound
  | .outbound => .outbound

def Bridge.other : Bridge → Bridge
  | .inbound => .outbound
  | .outbound => .inbound

/-- What the race of the initialization comes to. -/
inductive InitResult where
  | service
  | bridge (ok : Bool)                       -- what `watch_for_error` returned
  | rmcp (error : ServerInitializeError)

/-- The ways out of `serve_mcp` that drain the dispatches. -/
inductive Arm where
  | intercepted
  | bridge (ok : Bool)
  | rmcp (error : ServerInitializeError)
  | served (outcome : Outcome)

inductive Phase where
  | initRace
  | resolved (result : InitResult)
  | serviceRace
  | serviceAlone                               -- both bridges have exited `Ok`
  | draining (arm : Arm)
  | emitting (arm : Arm)
  | awaitingInbound (arm : Arm)
  | awaitingOutbound (arm : Arm) (inboundOk : Bool)
  | joining (result : Outcome)
  | ended (outcome : ServeOutcome)

structure Process where
  io : Stdio
  rmcp : Rmcp
  inboundConsumed : Bool
  outboundConsumed : Bool
  undrained : UInt64
  main : Phase

def Process.start : Process where
  io := .start
  rmcp := .initializing
  inboundConsumed := false
  outboundConsumed := false
  undrained := 0
  main := .initRace

namespace Process

def isConsumed (p : Process) : Bridge → Bool
  | .inbound => p.inboundConsumed
  | .outbound => p.outboundConsumed

def consume (p : Process) : Bridge → Process
  | .inbound => { p with inboundConsumed := true }
  | .outbound => { p with outboundConsumed := true }

/-- `watch_for_error` returns, in whichever race it is. -/
def watchReturns (p : Process) (ok : Bool) : Option Process :=
  match p.main with
  | .initRace => some { p with main := .resolved (.bridge ok) }
  | .serviceRace =>
      if ok then some { p with main := .serviceAlone }
      else some { p with main := .draining (.served (.error .bridge)) }
  | _ => none

/-- `watch_for_error` is still polled. -/
def isWatching (p : Process) : Bool :=
  match p.main with
  | .initRace | .serviceRace => true
  | _ => false

/-- An arm of the `select!` in `watch_for_error`. -/
def watch (p : Process) (b : Bridge) : Option Process :=
  if p.isWatching && !p.isConsumed b then
    (p.io.completion? b.writer).bind fun completion =>
      let p := p.consume b
      if completion.flatten then
        if p.isConsumed b.other then p.watchReturns true else some p
      else p.watchReturns false
  else none

/-- `take_or_await`. -/
def takeOrAwait (p : Process) (b : Bridge) : Option (Bool × Process) :=
  if p.isConsumed b then some (true, p)
  else (p.io.completion? b.writer).map fun completion => (completion.flatten, p.consume b)

/-- `drain`, or `shutdown_after_failure` with its abort. -/
def shutDown (p : Process) (arm : Arm) : Process :=
  match arm with
  | .served (.ok ()) => { p with main := .awaitingInbound arm }
  | _ => { p with io := { p.io with aborted := true }, main := .awaitingInbound arm }

/-- What follows the drain of the dispatches. -/
def afterDrain (codec : Codec) (p : Process) (arm : Arm) : Process :=
  match arm with
  | .rmcp (.expectedInitializeRequest (some msg)) =>
      match synthesizePreInitErrorEnvelope codec msg with
      | some line =>
          { p with io := { p.io with preInit := .emitting (utf8 line) }, main := .emitting arm }
      | none => p.shutDown arm
  | _ => p.shutDown arm

def finish (p : Process) (result : Outcome) (drainerAbortedRecords : UInt64) : Process :=
  { p with main := .ended ⟨result, p.undrained, drainerAbortedRecords⟩ }

end Process

/-- The result on a way out, after the shutdown of the bridges. -/
def conclude (inboundOk outboundOk : Bool) : Arm → Outcome
  | .intercepted => .ok ()
  | .bridge ok => .error (if ok then .bridgesExited else .bridgeDuringInit)
  | .rmcp (.expectedInitializeRequest (some _)) =>
      if outboundOk then .ok () else .error .afterPreInit
  | .rmcp (.initializeFailed code) =>
      if outboundOk then if code = INVALID_PARAMS then .ok () else .error (.initFailed code)
      else .error .afterInitFailure
  | .rmcp (.expectedInitializeRequest none) | .rmcp .other => .error .serverInit
  | .served (.error failure) => .error failure
  | .served (.ok ()) => if inboundOk && outboundOk then .ok () else .error .bridgeShutdown

inductive Label where
  | io (label : StdioBridges.Label)
  | initResolves (error : Option ServerInitializeError)
  | serviceEnds (ok : Bool)
  | watch (b : Bridge)
  | watchElse
  | loadFlag
  | drained (undrained : UInt64)
  | emitted
  | await (b : Bridge)
  | joined (aborted : Bool)

def step (codec : Codec) (p : Process) : Label → Option Process
  | .io label => (StdioBridges.step codec p.io label).map fun io => { p with io := io }
  | .initResolves error =>
      match p.main, p.rmcp, error with
      | .initRace, .initializing, none =>
          some { p with rmcp := .serving, main := .resolved .service }
      | .initRace, .initializing, some error =>
          some { p with rmcp := .refused error, main := .resolved (.rmcp error) }
      | _, _, _ => none
  | .serviceEnds ok =>
      match p.main, p.rmcp with
      | .serviceRace, .serving | .serviceAlone, .serving =>
          some { p with
            rmcp := .ended ok
            main := .draining (.served (if ok then .ok () else .error .mcpServer)) }
      | _, _ => none
  | .watch b => p.watch b
  | .watchElse => if p.inboundConsumed && p.outboundConsumed then p.watchReturns true else none
  | .loadFlag =>
      match p.main with
      | .resolved result =>
          if p.io.preInitIntercepted then some { p with main := .draining .intercepted }
          else
            match result with
            | .service => some { p with main := .serviceRace }
            | .bridge ok => some { p with main := .draining (.bridge ok) }
            | .rmcp error => some { p with main := .draining (.rmcp error) }
      | _ => none
  | .drained undrained =>
      match p.main with
      | .draining arm => some ({ p with undrained := undrained }.afterDrain codec arm)
      | _ => none
  | .emitted =>
      match p.main, p.io.completion? .preInit with
      | .emitting arm, some completion =>
          if completion.flatten then some (p.shutDown arm)
          else some (p.finish (.error .preInitEnvelope) 0)
      | _, _ => none
  | .await b =>
      match p.main, b with
      | .awaitingInbound arm, .inbound =>
          (p.takeOrAwait .inbound).map fun (ok, p) => { p with main := .awaitingOutbound arm ok }
      | .awaitingOutbound arm inboundOk, .outbound =>
          (p.takeOrAwait .outbound).map fun (outboundOk, p) =>
            let result := conclude inboundOk outboundOk arm
            match arm with
            | .served _ => { p with main := .joining result }
            | _ => p.finish result 0
      | _, _ => none
  | .joined aborted =>
      match p.main with
      | .joining result => some (p.finish result (if aborted then 1 else 0))
      | _ => none

/-- `emit_process_end`, with the two counters of the audit writer. -/
def emitProcessEnd (totalToolCalls suppressedFailures : UInt64) (outcome : ServeOutcome) :
    ProcessEnd where
  reason :=
    match outcome.result with
    | .ok () => .eof
    | .error _ => .error
  totalToolCalls := totalToolCalls
  recordsLost := suppressedFailures
  undrainedDispatches := outcome.undrainedDispatches
  drainerAbortedRecords := outcome.drainerAbortedRecords

/-! ## What a result may say -/

section

variable {codec : Codec} {p p' : Process} {w : Writer}

namespace Process

/-- The task of the writer has returned `Ok`. -/
def Through (p : Process) (w : Writer) : Prop := p.io.completion? w = some (.returned true)

def Failed (p : Process) (w : Writer) : Prop :=
  ∃ completion, p.io.completion? w = some completion ∧ completion.flatten = false

def BridgeFailed (p : Process) : Prop := p.Failed .inbound ∨ p.Failed .outbound

def BothThrough (p : Process) : Prop := p.Through .inbound ∧ p.Through .outbound

end Process

/-- The failure that each text reports. -/
def Cause (p : Process) : Failure → Prop
  | .bridgesExited => p.rmcp = .initializing ∧ p.BothThrough
  | .bridgeDuringInit => p.rmcp = .initializing ∧ p.BridgeFailed
  | .preInitEnvelope =>
      (∃ msg, p.rmcp = .refused (.expectedInitializeRequest (some msg))) ∧ p.Failed .preInit
  | .afterPreInit =>
      (∃ msg, p.rmcp = .refused (.expectedInitializeRequest (some msg))) ∧ p.Failed .outbound
  | .afterInitFailure => (∃ code, p.rmcp = .refused (.initializeFailed code)) ∧ p.Failed .outbound
  | .initFailed code => p.rmcp = .refused (.initializeFailed code) ∧ code ≠ INVALID_PARAMS
  | .serverInit =>
      p.rmcp = .refused (.expectedInitializeRequest none) ∨ p.rmcp = .refused .other
  | .bridge => p.rmcp = .serving ∧ p.BridgeFailed
  | .mcpServer => p.rmcp = .ended false
  | .bridgeShutdown => p.rmcp = .ended true ∧ p.BridgeFailed

/-- The client was answered, and rmcp never served it. -/
def Answered (codec : Codec) (p : Process) : Prop :=
  p.Through .outbound ∧
    ((∃ msg, p.rmcp = .refused (.expectedInitializeRequest (some msg)) ∧
        ∀ line, synthesizePreInitErrorEnvelope codec msg = some line → p.Through .preInit) ∨
      p.rmcp = .refused (.initializeFailed INVALID_PARAMS))

/-- The session came to its end and so did both bridges. -/
def Completed (p : Process) : Prop := p.rmcp = .ended true ∧ p.BothThrough

def Warranted (codec : Codec) (p : Process) : Outcome → Prop
  | .ok () => p.io.preInitIntercepted = true ∨ Answered codec p ∨ Completed p
  | .error failure => Cause p failure

/-! ## What is known in each phase -/

/-- A handle that has been polled to its end is skipped later, as `Ok`; it was. -/
def ConsumedOk (p : Process) : Prop :=
  (p.inboundConsumed = true → p.Through .inbound) ∧
    (p.outboundConsumed = true → p.Through .outbound)

def ArmKnown (p : Process) : Arm → Prop
  | .intercepted => p.io.preInitIntercepted = true
  | .bridge true => p.rmcp = .initializing ∧ p.BothThrough
  | .bridge false => p.rmcp = .initializing ∧ p.BridgeFailed
  | .rmcp error => p.rmcp = .refused error ∧ (p.outboundConsumed = true → p.Through .outbound)
  | .served (.ok ()) =>
      p.rmcp = .ended true ∧ (p.outboundConsumed = true → p.Through .outbound)
  | .served (.error failure) => Cause p failure

/-- The same for the inbound bridge, where its result counts. -/
def InboundOk (p : Process) (arm : Arm) : Prop :=
  arm = .served (.ok ()) → p.inboundConsumed = true → p.Through .inbound

/-- The envelope of the arm, if it has one, is out. -/
def Emitted (codec : Codec) (p : Process) (arm : Arm) : Prop :=
  ∀ msg line, arm = .rmcp (.expectedInitializeRequest (some msg)) →
    synthesizePreInitErrorEnvelope codec msg = some line → p.Through .preInit

def Known (codec : Codec) (p : Process) : Phase → Prop
  | .initRace => p.rmcp = .initializing ∧ ConsumedOk p
  | .resolved .service => p.rmcp = .serving ∧ ConsumedOk p
  | .resolved (.bridge ok) => ArmKnown p (.bridge ok)
  | .resolved (.rmcp error) => ArmKnown p (.rmcp error)
  | .serviceRace | .serviceAlone => p.rmcp = .serving ∧ ConsumedOk p
  | .draining arm => ArmKnown p arm ∧ InboundOk p arm
  | .emitting arm =>
      ArmKnown p arm ∧ ∃ msg, arm = .rmcp (.expectedInitializeRequest (some msg))
  | .awaitingInbound arm => ArmKnown p arm ∧ InboundOk p arm ∧ Emitted codec p arm
  | .awaitingOutbound arm inboundOk =>
      ArmKnown p arm ∧ Emitted codec p arm ∧
        (arm = .served (.ok ()) → if inboundOk then p.Through .inbound else p.Failed .inbound)
  | .joining result => Warranted codec p result
  | .ended outcome => Warranted codec p outcome.result

/-- The inbound task may have been aborted in the phase. -/
def Phase.mayAbort : Phase → Bool
  | .awaitingInbound (.served (.ok ())) | .awaitingOutbound (.served (.ok ())) _ => false
  | .awaitingInbound _ | .awaitingOutbound _ _ | .joining _ | .ended _ => true
  | _ => false

/-- The main task has not come to the envelope yet. -/
def Phase.isEarly : Phase → Bool
  | .initRace | .resolved _ | .serviceRace | .serviceAlone | .draining _ => true
  | _ => false

structure Inv (codec : Codec) (p : Process) : Prop where
  sound : Sound codec p.io
  known : Known codec p p.main
  unaborted : p.main.mayAbort = false → p.io.aborted = false
  idle : p.main.isEarly = true → p.io.preInit = .idle

/-! ## What is known stays known while the tasks go on -/

/-- The tasks have gone on, and rmcp and the supervisor have not. -/
structure Onward (p p' : Process) : Prop where
  rmcp : p'.rmcp = p.rmcp
  inboundConsumed : p'.inboundConsumed = p.inboundConsumed
  outboundConsumed : p'.outboundConsumed = p.outboundConsumed
  io : Later p.io p'.io

theorem Onward.through (h : Onward p p') (hthrough : p.Through w) : p'.Through w :=
  h.io.completion w _ hthrough

theorem Onward.failed (h : Onward p p') (hfailed : p.Failed w) : p'.Failed w := by
  obtain ⟨completion, hcompletion, hflatten⟩ := hfailed
  exact ⟨completion, h.io.completion w _ hcompletion, hflatten⟩

theorem Onward.bridgeFailed (h : Onward p p') (hfailed : p.BridgeFailed) : p'.BridgeFailed :=
  hfailed.imp h.failed h.failed

theorem Onward.bothThrough (h : Onward p p') (hthrough : p.BothThrough) : p'.BothThrough :=
  hthrough.imp h.through h.through

theorem Onward.consumedOk (h : Onward p p') (hok : ConsumedOk p) : ConsumedOk p' := by
  refine ⟨?_, ?_⟩
  · rw [h.inboundConsumed]
    exact fun hset => h.through (hok.1 hset)
  · rw [h.outboundConsumed]
    exact fun hset => h.through (hok.2 hset)

theorem Onward.cause (h : Onward p p') {failure : Failure} (hcause : Cause p failure) :
    Cause p' failure := by
  cases failure with
  | bridgesExited => exact ⟨h.rmcp.trans hcause.1, h.bothThrough hcause.2⟩
  | bridgeDuringInit => exact ⟨h.rmcp.trans hcause.1, h.bridgeFailed hcause.2⟩
  | preInitEnvelope => exact ⟨hcause.1.imp fun _ => h.rmcp.trans, h.failed hcause.2⟩
  | afterPreInit => exact ⟨hcause.1.imp fun _ => h.rmcp.trans, h.failed hcause.2⟩
  | afterInitFailure => exact ⟨hcause.1.imp fun _ => h.rmcp.trans, h.failed hcause.2⟩
  | initFailed code => exact ⟨h.rmcp.trans hcause.1, hcause.2⟩
  | serverInit => exact hcause.imp h.rmcp.trans h.rmcp.trans
  | bridge => exact ⟨h.rmcp.trans hcause.1, h.bridgeFailed hcause.2⟩
  | mcpServer => exact h.rmcp.trans hcause
  | bridgeShutdown => exact ⟨h.rmcp.trans hcause.1, h.bridgeFailed hcause.2⟩

theorem Onward.armKnown (h : Onward p p') {arm : Arm} (harm : ArmKnown p arm) :
    ArmKnown p' arm := by
  cases arm with
  | intercepted => exact h.io.intercepted harm
  | bridge ok =>
      cases ok with
      | true => exact ⟨h.rmcp.trans harm.1, h.bothThrough harm.2⟩
      | false => exact ⟨h.rmcp.trans harm.1, h.bridgeFailed harm.2⟩
  | rmcp error =>
      refine ⟨h.rmcp.trans harm.1, ?_⟩
      rw [h.outboundConsumed]
      exact fun hset => h.through (harm.2 hset)
  | served outcome =>
      cases outcome with
      | ok =>
          refine ⟨h.rmcp.trans harm.1, ?_⟩
          rw [h.outboundConsumed]
          exact fun hset => h.through (harm.2 hset)
      | error failure => exact h.cause harm

theorem Onward.warranted (h : Onward p p') {result : Outcome} (hresult : Warranted codec p result) :
    Warranted codec p' result := by
  cases result with
  | error failure => exact h.cause hresult
  | ok =>
      rcases hresult with hset | ⟨hthrough, hrefused⟩ | ⟨hended, hboth⟩
      · exact .inl (h.io.intercepted hset)
      · refine .inr (.inl ⟨h.through hthrough, ?_⟩)
        refine hrefused.imp ?_ h.rmcp.trans
        rintro ⟨msg, hmsg, henvelope⟩
        exact ⟨msg, h.rmcp.trans hmsg, fun line hline => h.through (henvelope line hline)⟩
      · exact .inr (.inr ⟨h.rmcp.trans hended, h.bothThrough hboth⟩)

theorem Onward.inboundOk (h : Onward p p') {arm : Arm} (harm : InboundOk p arm) :
    InboundOk p' arm := by
  intro hserved
  rw [h.inboundConsumed]
  exact fun hset => h.through (harm hserved hset)

theorem Onward.emitted (h : Onward p p') {arm : Arm} (harm : Emitted codec p arm) :
    Emitted codec p' arm := fun msg line heq hline => h.through (harm msg line heq hline)

theorem Onward.known (h : Onward p p') {phase : Phase} (hknown : Known codec p phase) :
    Known codec p' phase := by
  cases phase with
  | initRace => exact ⟨h.rmcp.trans hknown.1, h.consumedOk hknown.2⟩
  | resolved result =>
      cases result with
      | service => exact ⟨h.rmcp.trans hknown.1, h.consumedOk hknown.2⟩
      | bridge ok =>
          have harm : ArmKnown p (.bridge ok) := hknown
          exact h.armKnown harm
      | rmcp error =>
          have harm : ArmKnown p (.rmcp error) := hknown
          exact h.armKnown harm
  | serviceRace => exact ⟨h.rmcp.trans hknown.1, h.consumedOk hknown.2⟩
  | serviceAlone => exact ⟨h.rmcp.trans hknown.1, h.consumedOk hknown.2⟩
  | draining arm => exact ⟨h.armKnown hknown.1, h.inboundOk hknown.2⟩
  | emitting arm => exact ⟨h.armKnown hknown.1, hknown.2⟩
  | awaitingInbound arm =>
      exact ⟨h.armKnown hknown.1, h.inboundOk hknown.2.1, h.emitted hknown.2.2⟩
  | awaitingOutbound arm inboundOk =>
      refine ⟨h.armKnown hknown.1, h.emitted hknown.2.1, ?_⟩
      intro hserved
      have hinbound := hknown.2.2 hserved
      cases inboundOk with
      | true => exact h.through hinbound
      | false => exact h.failed hinbound
  | joining result => exact h.warranted hknown
  | ended outcome => exact h.warranted hknown

/-! ## The steps of the main task -/

theorem Inv.through_of_flatten (h : Inv codec p) (hmay : p.main.mayAbort = false)
    {completion : Completion} (hcompletion : p.io.completion? w = some completion)
    (hflatten : completion.flatten = true) : p.Through w := by
  cases completion with
  | returned ok =>
      cases ok with
      | true => exact hcompletion
      | false => cases hflatten
  | cancelled =>
      have haborted := (h.sound.cancelled w hcompletion).2
      rw [h.unaborted hmay] at haborted
      cases haborted
  | panicked => cases hflatten

/-- `watch_for_error` returns with both bridges through, or with one that failed. -/
theorem Inv.watchReturns (h : Inv codec p) {consumed : Process} (hio : consumed.io = p.io)
    (hmain : consumed.main = p.main) (hrmcp : consumed.rmcp = p.rmcp) (ok : Bool)
    (htrue : ok = true → consumed.BothThrough ∧ ConsumedOk consumed)
    (hfalse : ok = false → consumed.BridgeFailed)
    (hreturns : consumed.watchReturns ok = some p') : Inv codec p' := by
  have hknown := h.known
  rw [← hmain] at hknown
  simp only [Process.watchReturns] at hreturns
  split at hreturns
  · rename_i hphase
    rw [hphase] at hknown
    cases hreturns
    have hearly : p.io.preInit = .idle := h.idle (by rw [← hmain, hphase]; rfl)
    have hunaborted : p.io.aborted = false := h.unaborted (by rw [← hmain, hphase]; rfl)
    refine ⟨hio ▸ h.sound, ?_, fun _ => hio ▸ hunaborted, fun _ => hio ▸ hearly⟩
    cases ok with
    | true => exact ⟨hrmcp.trans hknown.1, (htrue rfl).1⟩
    | false => exact ⟨hrmcp.trans hknown.1, hfalse rfl⟩
  · rename_i hphase
    rw [hphase] at hknown
    have hearly : p.io.preInit = .idle := h.idle (by rw [← hmain, hphase]; rfl)
    have hunaborted : p.io.aborted = false := h.unaborted (by rw [← hmain, hphase]; rfl)
    cases ok with
    | true =>
        cases hreturns
        refine ⟨hio ▸ h.sound, ?_, fun _ => hio ▸ hunaborted, fun _ => hio ▸ hearly⟩
        exact ⟨hrmcp.trans hknown.1, (htrue rfl).2⟩
    | false =>
        cases hreturns
        refine ⟨hio ▸ h.sound, ?_, fun _ => hio ▸ hunaborted, fun _ => hio ▸ hearly⟩
        exact ⟨⟨hrmcp.trans hknown.1, hfalse rfl⟩, nofun⟩
  · cases hreturns

/-- While `watch_for_error` is polled, what it has consumed was `Ok`. -/
theorem Inv.consumedOk_of_isWatching (h : Inv codec p) (hwatching : p.isWatching = true) :
    ConsumedOk p ∧ p.main.mayAbort = false := by
  have hknown := h.known
  simp only [Process.isWatching] at hwatching
  split at hwatching
  · rename_i hphase
    rw [hphase] at hknown ⊢
    exact ⟨hknown.2, rfl⟩
  · rename_i hphase
    rw [hphase] at hknown ⊢
    exact ⟨hknown.2, rfl⟩
  · cases hwatching

theorem Inv.consume (h : Inv codec p) (hwatching : p.isWatching = true) {b : Bridge}
    (hthrough : p.Through b.writer) : Inv codec (p.consume b) ∧ ConsumedOk (p.consume b) := by
  obtain ⟨⟨hinbound, houtbound⟩, hmay⟩ := h.consumedOk_of_isWatching hwatching
  have hok : ConsumedOk (p.consume b) := by
    cases b with
    | inbound => exact ⟨fun _ => hthrough, houtbound⟩
    | outbound => exact ⟨hinbound, fun _ => hthrough⟩
  have hio : (p.consume b).io = p.io := by cases b <;> rfl
  have hmain : (p.consume b).main = p.main := by cases b <;> rfl
  have hrmcp : (p.consume b).rmcp = p.rmcp := by cases b <;> rfl
  refine ⟨⟨hio ▸ h.sound, ?_, ?_, ?_⟩, hok⟩
  · rw [hmain]
    have hknown := h.known
    simp only [Process.isWatching] at hwatching
    split at hwatching
    · rename_i hphase
      rw [hphase] at hknown ⊢
      exact ⟨hrmcp.trans hknown.1, hok⟩
    · rename_i hphase
      rw [hphase] at hknown ⊢
      exact ⟨hrmcp.trans hknown.1, hok⟩
    · cases hwatching
  · rw [hmain, hio]
    exact h.unaborted
  · rw [hmain, hio]
    exact h.idle

theorem bothThrough_of_consumed {b : Bridge} (hok : ConsumedOk p) (hb : p.isConsumed b = true)
    (hother : p.isConsumed b.other = true) : p.BothThrough := by
  cases b with
  | inbound => exact ⟨hok.1 hb, hok.2 hother⟩
  | outbound => exact ⟨hok.1 hother, hok.2 hb⟩

theorem inv_watch (h : Inv codec p) {b : Bridge} (hstep : p.watch b = some p') :
    Inv codec p' := by
  unfold Process.watch at hstep
  split at hstep
  · rename_i hwatching
    rw [Bool.and_eq_true] at hwatching
    obtain ⟨completion, hcompletion, hstep⟩ := Option.bind_eq_some_iff.mp hstep
    simp only at hstep
    have hio : (p.consume b).io = p.io := by cases b <;> rfl
    have hmain : (p.consume b).main = p.main := by cases b <;> rfl
    have hrmcp : (p.consume b).rmcp = p.rmcp := by cases b <;> rfl
    split at hstep
    · rename_i hflatten
      have hmay := (h.consumedOk_of_isWatching hwatching.1).2
      have hthrough := h.through_of_flatten hmay hcompletion hflatten
      obtain ⟨hinv, hok⟩ := h.consume hwatching.1 hthrough
      split at hstep
      · rename_i hother
        have hb : (p.consume b).isConsumed b = true := by cases b <;> rfl
        have hboth := bothThrough_of_consumed hok hb hother
        exact h.watchReturns hio hmain hrmcp true (fun _ => ⟨hboth, hok⟩) nofun hstep
      · cases hstep
        exact hinv
    · rename_i hfails
      have hfailed : (p.consume b).Failed b.writer :=
        ⟨completion, by rw [hio]; exact hcompletion, Bool.eq_false_of_not_eq_true hfails⟩
      have hbridge : (p.consume b).BridgeFailed := by
        cases b with
        | inbound => exact .inl hfailed
        | outbound => exact .inr hfailed
      exact h.watchReturns hio hmain hrmcp false nofun (fun _ => hbridge) hstep
  · cases hstep

theorem inv_shutDown (h : Inv codec p) {arm : Arm} (harm : ArmKnown p arm)
    (hinbound : InboundOk p arm) (hemitted : Emitted codec p arm)
    (hunaborted : arm = .served (.ok ()) → p.io.aborted = false) : Inv codec (p.shutDown arm) := by
  have hcases : arm = .served (.ok ()) ∨
      p.shutDown arm = { p with
        io := { p.io with aborted := true }, main := .awaitingInbound arm } ∧
      (Phase.awaitingInbound arm).mayAbort = true := by
    cases arm with
    | served outcome =>
        cases outcome with
        | ok => exact .inl rfl
        | error failure => exact .inr ⟨rfl, rfl⟩
    | _ => exact .inr ⟨rfl, rfl⟩
  rcases hcases with rfl | ⟨heq, hmay⟩
  · exact ⟨h.sound, ⟨harm, hinbound, hemitted⟩, fun _ => hunaborted rfl, nofun⟩
  · rw [heq]
    refine ⟨h.sound.abort, ?_, ?_, nofun⟩
    · refine ⟨?_, hinbound, hemitted⟩
      cases arm <;> exact harm
    · intro hnot
      rw [hmay] at hnot
      cases hnot

theorem inv_afterDrain (h : Inv codec p) {arm : Arm} (hphase : p.main = .draining arm) :
    Inv codec (p.afterDrain codec arm) := by
  have hknown := h.known
  rw [hphase] at hknown
  have hidle : p.io.preInit = .idle := h.idle (by rw [hphase]; rfl)
  have hunaborted : p.io.aborted = false := h.unaborted (by rw [hphase]; rfl)
  unfold Process.afterDrain
  split
  · rename_i msg
    split
    · rename_i line hline
      refine ⟨h.sound.emit hidle hline, ?_, fun _ => hunaborted, nofun⟩
      exact ⟨hknown.1, msg, rfl⟩
    · rename_i hnone
      refine inv_shutDown h hknown.1 hknown.2 ?_ fun _ => hunaborted
      intro msg' line heq hline
      cases heq
      rw [hnone] at hline
      cases hline
  · rename_i hother
    refine inv_shutDown h hknown.1 hknown.2 ?_ fun _ => hunaborted
    intro msg line heq hline
    exact absurd heq (hother msg)

/-- What `conclude` says is so. -/
theorem warranted_conclude {arm : Arm} {inboundOk outboundOk : Bool} (harm : ArmKnown p arm)
    (hemitted : Emitted codec p arm)
    (hinbound : arm = .served (.ok ()) →
      if inboundOk then p.Through .inbound else p.Failed .inbound)
    (houtbound : if outboundOk then
      (∀ error, arm = .rmcp error → p.Through .outbound) ∧
        (arm = .served (.ok ()) → p.Through .outbound)
      else p.Failed .outbound) :
    Warranted codec p (conclude inboundOk outboundOk arm) := by
  cases arm with
  | intercepted => exact .inl harm
  | bridge ok =>
      cases ok with
      | true => exact harm
      | false => exact harm
  | rmcp error =>
      cases outboundOk with
      | true =>
          have hthrough : p.Through .outbound := houtbound.1 error rfl
          cases error with
          | expectedInitializeRequest msg =>
              cases msg with
              | none => exact .inl harm.1
              | some msg =>
                  have henvelope := fun line => hemitted msg line rfl
                  exact .inr (.inl ⟨hthrough, .inl ⟨msg, harm.1, henvelope⟩⟩)
          | initializeFailed code =>
              simp only [conclude, if_true]
              split
              · rename_i hcode
                exact .inr (.inl ⟨hthrough, .inr (hcode ▸ harm.1)⟩)
              · rename_i hcode
                exact ⟨harm.1, hcode⟩
          | other => exact .inr harm.1
      | false =>
          cases error with
          | expectedInitializeRequest msg =>
              cases msg with
              | none => exact .inl harm.1
              | some msg => exact ⟨⟨msg, harm.1⟩, houtbound⟩
          | initializeFailed code => exact ⟨⟨code, harm.1⟩, houtbound⟩
          | other => exact .inr harm.1
  | served outcome =>
      cases outcome with
      | error failure => exact harm
      | ok =>
          have hinbound := hinbound rfl
          cases inboundOk with
          | false => exact ⟨harm.1, .inl hinbound⟩
          | true =>
              cases outboundOk with
              | false => exact ⟨harm.1, .inr houtbound⟩
              | true => exact .inr (.inr ⟨harm.1, hinbound, houtbound.2 rfl⟩)

theorem Inv.through_of_ne_inbound (h : Inv codec p) (hw : w ≠ .inbound) {completion : Completion}
    (hcompletion : p.io.completion? w = some completion) (hflatten : completion.flatten = true) :
    p.Through w := by
  cases completion with
  | returned ok =>
      cases ok with
      | true => exact hcompletion
      | false => cases hflatten
  | cancelled => exact absurd (h.sound.cancelled w hcompletion).1 hw
  | panicked => cases hflatten

/-- What `take_or_await` gives and leaves. -/
theorem takeOrAwait_eq_some {b : Bridge} {ok : Bool} (h : p.takeOrAwait b = some (ok, p')) :
    (p.isConsumed b = true ∧ ok = true ∧ p' = p) ∨
      (p' = p.consume b ∧ p.isConsumed b = false ∧
        ∃ completion, p.io.completion? b.writer = some completion ∧ ok = completion.flatten) := by
  unfold Process.takeOrAwait at h
  split at h
  · rename_i hconsumed
    cases h
    exact .inl ⟨hconsumed, rfl, rfl⟩
  · rename_i hconsumed
    obtain ⟨completion, hcompletion, heq⟩ := Option.map_eq_some_iff.mp h
    cases heq
    exact .inr ⟨rfl, Bool.eq_false_of_not_eq_true hconsumed, completion, hcompletion, rfl⟩

theorem inv_awaitInbound (h : Inv codec p) {arm : Arm} (hphase : p.main = .awaitingInbound arm)
    {ok : Bool} (hawait : p.takeOrAwait .inbound = some (ok, p')) :
    Inv codec { p' with main := .awaitingOutbound arm ok } := by
  have hknown := h.known
  rw [hphase] at hknown
  obtain ⟨harm, hinbound, hemitted⟩ := hknown
  have hmay : (Phase.awaitingOutbound arm ok).mayAbort = p.main.mayAbort := by
    rw [hphase]
    cases arm with
    | served outcome => cases outcome <;> rfl
    | _ => rfl
  rcases takeOrAwait_eq_some hawait with
    ⟨hconsumed, rfl, rfl⟩ | ⟨rfl, -, completion, hcompletion, rfl⟩
  · refine ⟨h.sound, ⟨by cases arm <;> exact harm, hemitted, ?_⟩, ?_, nofun⟩
    · intro hserved
      exact hinbound hserved hconsumed
    · intro hnot
      exact h.unaborted (hmay ▸ hnot)
  · refine ⟨h.sound, ⟨by cases arm <;> exact harm, hemitted, ?_⟩, ?_, nofun⟩
    · intro hserved
      split
      · rename_i hflatten
        have hunaborted : p.main.mayAbort = false := by
          rw [hphase, hserved]
          rfl
        exact h.through_of_flatten hunaborted hcompletion hflatten
      · rename_i hfails
        exact ⟨completion, hcompletion, Bool.eq_false_of_not_eq_true hfails⟩
    · intro hnot
      exact h.unaborted (hmay ▸ hnot)

theorem inv_awaitOutbound (h : Inv codec p) {arm : Arm} {inboundOk outboundOk : Bool}
    (hphase : p.main = .awaitingOutbound arm inboundOk)
    (hawait : p.takeOrAwait .outbound = some (outboundOk, p')) :
    Sound codec p'.io ∧ Warranted codec p' (conclude inboundOk outboundOk arm) := by
  have hknown := h.known
  rw [hphase] at hknown
  obtain ⟨harm, hemitted, hinbound⟩ := hknown
  rcases takeOrAwait_eq_some hawait with
    ⟨hconsumed, rfl, rfl⟩ | ⟨rfl, -, completion, hcompletion, rfl⟩
  · refine ⟨h.sound, warranted_conclude harm hemitted hinbound ⟨?_, ?_⟩⟩
    · rintro error rfl
      exact harm.2 hconsumed
    · rintro rfl
      exact harm.2 hconsumed
  · refine ⟨h.sound, ?_⟩
    have hreached : Warranted codec p (conclude inboundOk completion.flatten arm) := by
      refine warranted_conclude harm hemitted hinbound ?_
      split
      · rename_i hflatten
        have hthrough : p.Through .outbound :=
          h.through_of_ne_inbound nofun hcompletion hflatten
        exact ⟨fun _ _ => hthrough, fun _ => hthrough⟩
      · rename_i hfails
        exact ⟨completion, hcompletion, Bool.eq_false_of_not_eq_true hfails⟩
    cases hresult : conclude inboundOk completion.flatten arm with
    | ok =>
        rw [hresult] at hreached
        exact hreached
    | error failure =>
        rw [hresult] at hreached
        cases failure <;> exact hreached

/-- A result that is warranted is all there is to know at the end. -/
theorem inv_of_warranted (hsound : Sound codec p.io) (result : Outcome)
    (hresult : Warranted codec p result) :
    Inv codec { p with main := .joining result } ∧ ∀ count, Inv codec (p.finish result count) := by
  have hmain : ∀ phase, Warranted codec { p with main := phase } result := by
    intro phase
    cases result with
    | ok => exact hresult
    | error failure => cases failure <;> exact hresult
  exact ⟨⟨hsound, hmain _, nofun, nofun⟩, fun count => ⟨hsound, hmain _, nofun, nofun⟩⟩

/-- **What is known is known after every step.** -/
theorem inv_step {label : Label} (h : Inv codec p) (hstep : step codec p label = some p') :
    Inv codec p' := by
  have hknown := h.known
  cases label with
  | io label =>
      obtain ⟨io, hio, rfl⟩ := Option.map_eq_some_iff.mp hstep
      have hlater : Later p.io io := StdioBridges.later_step h.sound hio
      have honward : Onward p { p with io := io } := ⟨rfl, rfl, rfl, hlater⟩
      refine ⟨StdioBridges.sound_step h.sound hio, honward.known hknown, ?_, ?_⟩
      · intro hmay
        exact (StdioBridges.aborted_step hio).trans (h.unaborted hmay)
      · intro hearly
        exact hlater.idle.mpr (h.idle hearly)
  | initResolves error =>
      simp only [step] at hstep
      split at hstep
      · rename_i hphase hrmcp
        cases hstep
        rw [hphase] at hknown
        refine ⟨h.sound, ⟨rfl, hknown.2⟩, ?_, ?_⟩
        · exact fun _ => h.unaborted (by rw [hphase]; rfl)
        · exact fun _ => h.idle (by rw [hphase]; rfl)
      · rename_i error hphase hrmcp
        cases hstep
        rw [hphase] at hknown
        refine ⟨h.sound, ⟨rfl, hknown.2.2⟩, ?_, ?_⟩
        · exact fun _ => h.unaborted (by rw [hphase]; rfl)
        · exact fun _ => h.idle (by rw [hphase]; rfl)
      · cases hstep
  | serviceEnds ok =>
      have hphases : (p.main = .serviceRace ∨ p.main = .serviceAlone) ∧ p' = { p with
          rmcp := .ended ok
          main := .draining (.served (if ok then .ok () else .error .mcpServer)) } := by
        simp only [step] at hstep
        split at hstep
        · rename_i hphase hrmcp
          exact ⟨.inl hphase, (Option.some.inj hstep).symm⟩
        · rename_i hphase hrmcp
          exact ⟨.inr hphase, (Option.some.inj hstep).symm⟩
        · cases hstep
      obtain ⟨hphase, rfl⟩ := hphases
      have hconsumed : ConsumedOk p := by
        rcases hphase with hphase | hphase
        · rw [hphase] at hknown
          exact hknown.2
        · rw [hphase] at hknown
          exact hknown.2
      refine ⟨h.sound, ?_, ?_, ?_⟩
      · cases ok with
        | true => exact ⟨⟨rfl, hconsumed.2⟩, fun _ => hconsumed.1⟩
        | false => exact ⟨rfl, nofun⟩
      · refine fun _ => h.unaborted ?_
        rcases hphase with hphase | hphase <;> rw [hphase] <;> rfl
      · refine fun _ => h.idle ?_
        rcases hphase with hphase | hphase <;> rw [hphase] <;> rfl
  | watch b => exact inv_watch h hstep
  | watchElse =>
      simp only [step] at hstep
      split at hstep
      · rename_i hboth
        rw [Bool.and_eq_true] at hboth
        have hwatching : p.isWatching = true := by
          simp only [Process.watchReturns] at hstep
          unfold Process.isWatching
          split at hstep
          · rfl
          · rfl
          · cases hstep
        obtain ⟨hok, -⟩ := h.consumedOk_of_isWatching hwatching
        have hthrough : p.BothThrough := ⟨hok.1 hboth.1, hok.2 hboth.2⟩
        exact h.watchReturns rfl rfl rfl true (fun _ => ⟨hthrough, hok⟩) nofun hstep
      · cases hstep
  | loadFlag =>
      simp only [step] at hstep
      split at hstep
      · rename_i result hphase
        rw [hphase] at hknown
        have hunaborted : p.io.aborted = false := h.unaborted (by rw [hphase]; rfl)
        have hidle : p.io.preInit = .idle := h.idle (by rw [hphase]; rfl)
        split at hstep
        · rename_i hset
          cases hstep
          exact ⟨h.sound, ⟨hset, nofun⟩, fun _ => hunaborted, fun _ => hidle⟩
        · split at hstep
          · cases hstep
            exact ⟨h.sound, hknown, fun _ => hunaborted, fun _ => hidle⟩
          · rename_i ok
            cases hstep
            refine ⟨h.sound, ⟨?_, nofun⟩, fun _ => hunaborted, fun _ => hidle⟩
            cases ok <;> exact hknown
          · cases hstep
            exact ⟨h.sound, ⟨hknown, nofun⟩, fun _ => hunaborted, fun _ => hidle⟩
      · cases hstep
  | drained undrained =>
      simp only [step] at hstep
      split at hstep
      · rename_i arm hphase
        cases hstep
        have hinv : Inv codec { p with undrained := undrained } := by
          have honward : Onward p { p with undrained := undrained } :=
            ⟨rfl, rfl, rfl, .of_phases rfl rfl rfl rfl⟩
          exact ⟨h.sound, honward.known hknown, h.unaborted, h.idle⟩
        exact inv_afterDrain hinv hphase
      · cases hstep
  | emitted =>
      simp only [step] at hstep
      split at hstep
      · rename_i arm completion hphase hcompletion
        rw [hphase] at hknown
        obtain ⟨harm, msg, rfl⟩ := hknown
        split at hstep
        · rename_i hflatten
          cases hstep
          have hthrough : p.Through .preInit :=
            h.through_of_ne_inbound nofun hcompletion hflatten
          exact inv_shutDown h harm nofun (fun _ _ _ _ => hthrough) nofun
        · rename_i hfails
          cases hstep
          have hcause : Cause p .preInitEnvelope := by
            refine ⟨⟨msg, harm.1⟩, completion, hcompletion, ?_⟩
            exact Bool.eq_false_of_not_eq_true hfails
          exact (inv_of_warranted h.sound (.error .preInitEnvelope) hcause).2 0
      · cases hstep
  | await b =>
      simp only [step] at hstep
      split at hstep
      · rename_i arm hphase
        obtain ⟨⟨ok, consumed⟩, hawait, rfl⟩ := Option.map_eq_some_iff.mp hstep
        exact inv_awaitInbound h hphase hawait
      · rename_i arm inboundOk hphase
        obtain ⟨⟨outboundOk, consumed⟩, hawait, rfl⟩ := Option.map_eq_some_iff.mp hstep
        obtain ⟨hsound, hresult⟩ := inv_awaitOutbound h hphase hawait
        obtain ⟨hjoining, hended⟩ := inv_of_warranted hsound _ hresult
        cases arm with
        | served outcome => exact hjoining
        | _ => exact hended 0
      · cases hstep
  | joined aborted =>
      simp only [step] at hstep
      split at hstep
      · rename_i result hphase
        rw [hphase] at hknown
        cases hstep
        exact (inv_of_warranted h.sound result hknown).2 _
      · cases hstep

theorem inv_start : Inv codec .start where
  sound := .start
  known := ⟨rfl, nofun, nofun⟩
  unaborted := fun _ => rfl
  idle := fun _ => rfl

theorem inv_of_run {labels : List Label} (hrun : run (step codec) .start labels = some p) :
    Inv codec p :=
  invariant_of_run (fun _ _ _ => inv_step) inv_start hrun

/-! ## What is on stdout -/

theorem mem_framesOf {t : Turn Writer UInt8} (h : t ∈ p.io.stdout.turns) :
    t.frame ∈ p.io.stdout.framesOf t.owner :=
  List.mem_map_of_mem (List.mem_filter.mpr ⟨h, decide_eq_true rfl⟩)

theorem framesOf_prefix_asked (s : Stdio) (w : Writer) : s.stdout.framesOf w <+: s.asked w :=
  List.prefix_append _ _

/-- The frames of all three writers are lines, if those of rmcp are. -/
theorem isLine_frame (hcompact : codec.Compact) (h : Sound codec p.io) {lines : List Bytes}
    (hlines : ∀ line ∈ lines, IsLine LF line) (hfrom : p.io.fromRmcp = lines.flatten)
    {t : Turn Writer UInt8} (ht : t ∈ p.io.stdout.turns) : IsLine LF t.frame := by
  have hmem := (framesOf_prefix_asked p.io t.owner).subset (mem_framesOf ht)
  cases howner : t.owner with
  | inbound =>
      obtain ⟨b, hb⟩ := h.follows
      rw [howner] at hmem
      obtain ⟨line, hline, heq⟩ := List.mem_map.mp (hb.answers.1.subset hmem)
      rw [← heq]
      exact StdioBridges.isLine_utf8 (StdioBridges.isLine_of_run hcompact hb.run line hline)
  | outbound =>
      rw [howner] at hmem
      have htaken : t.frame ∈ splitKeep LF p.io.fromRmcp := by
        rw [h.passes.frames]
        exact List.mem_append_left _ (h.passes.passed.1.subset hmem)
      rw [hfrom, splitKeep_flatten hlines] at htaken
      exact hlines _ htaken
  | preInit =>
      rw [howner] at hmem
      obtain ⟨msg, line, hline, heq⟩ := h.envelopes _ hmem
      rw [heq]
      cases msg with
      | request req =>
          obtain rfl := Option.some.inj hline
          exact StdioBridges.isLine_utf8 (InboundBridge.isLine_append_newline (hcompact _))
      | notification => cases hline
      | response => cases hline
      | error => cases hline

end

/-- **Stdout is the frames of its writers, one after the other.**  In every interleaving it
    is what came out in the turns of the three writers, and a frame that did not come out
    whole is the last of a writer that gave up.  The inbound frames are the answers that
    the bridge gives to the lines read, the outbound frames the first lines that rmcp
    wrote, each in order; and while nobody has given up no line has two writers. -/
theorem stdout_framed (codec : Codec) (hcompact : codec.Compact) (labels : List Label)
    (p : Process) (hrun : run (step codec) .start labels = some p) :
    p.io.stdout.stream = (p.io.stdout.turns.map Turn.written).flatten ∧
      Output.TornLast p.io.GaveUp p.io.stdout ∧
      (∃ b, run (InboundBridge.step codec) .init p.io.lines = some b ∧
        p.io.stdout.framesOf .inbound <+: b.stdout.map utf8 ∧ p.io.forwarded <+: b.forwarded) ∧
      p.io.stdout.framesOf .outbound <+: splitKeep LF p.io.fromRmcp ∧
      ∀ lines : List Bytes, (∀ line ∈ lines, IsLine LF line) → p.io.fromRmcp = lines.flatten →
        (∀ w, ¬ p.io.GaveUp w) → p.io.stdout.current = none →
          splitKeep LF p.io.stdout.stream = p.io.stdout.past.map Turn.frame := by
  have hsound := (inv_of_run hrun).sound
  refine ⟨hsound.locked.consistent.stream, hsound.locked.torn, ?_, ?_, ?_⟩
  · obtain ⟨b, hb⟩ := hsound.follows
    refine ⟨b, hb.run, ?_, ?_⟩
    · exact (framesOf_prefix_asked p.io .inbound).trans hb.answers.1
    · exact (List.prefix_append _ _).trans hb.forwards.1
  · rw [hsound.passes.frames]
    refine ((framesOf_prefix_asked p.io .outbound).trans hsound.passes.passed.1).trans ?_
    exact List.prefix_append _ _
  · intro lines hlines hfrom hlive hfree
    have hturns : p.io.stdout.turns = p.io.stdout.past := by simp [Output.turns, hfree]
    have hwhole : ∀ t ∈ p.io.stdout.turns, t.Whole := by
      intro t ht
      by_contra htorn
      rw [hturns] at ht
      obtain ⟨before, after, hpast⟩ := List.append_of_mem ht
      exact hlive t.owner (hsound.locked.torn before t after hpast htorn).1
    rw [hsound.locked.consistent.stream_of_whole hwhole, hturns]
    refine splitKeep_flatten ?_
    intro frame hframe
    obtain ⟨t, ht, rfl⟩ := List.mem_map.mp hframe
    rw [← hturns] at ht
    exact isLine_frame hcompact hsound hlines hfrom ht

/-- A line is refused while a frame of rmcp is on its way out in two chunks. -/
def sampleAnswers : List Label :=
  [.io (.rmcpWrites [123, 125, 10]), .io .take, .io (.acquire .outbound),
   .io (.readLine [120, 10]), .io (.write .outbound 1), .io (.write .outbound 2),
   .io (.flush .outbound), .io (.acquire .inbound), .io (.write .inbound 80),
   .io (.flush .inbound)]

theorem stdout_framed_sampleAnswers :
    ∃ p, run (step InboundBridge.sampleCodec) .start sampleAnswers = some p ∧
      p.io.stdout.past.map Turn.owner = [.outbound, .inbound] ∧
      p.io.stdout.framesOf .outbound <+: splitKeep LF p.io.fromRmcp := by
  have hrun : (run (step InboundBridge.sampleCodec) .start sampleAnswers).map
      (fun p => p.io.stdout.past.map Turn.owner) = some [.outbound, .inbound] := by
    decide +kernel
  obtain ⟨p, hp, howners⟩ := Option.map_eq_some_iff.mp hrun
  exact ⟨p, hp, howners, (stdout_framed InboundBridge.sampleCodec
    InboundBridge.sampleCodec_compact sampleAnswers p hp).2.2.2.1⟩

section

variable {codec : Codec} {p : Process} {w : Writer}

/-! ## What `process_end` says -/

/-- The bridges' frames on stdout, each whole; the answers are those to the lines read. -/
structure AnswersOut (codec : Codec) (p : Process) (b : InboundBridge.Bridge) : Prop where
  run : run (InboundBridge.step codec) .init p.io.lines = some b
  frames : p.io.stdout.framesOf .inbound = b.stdout.map utf8
  whole : ∀ t ∈ p.io.stdout.turns, t.owner = .inbound → t.Whole

/-- Everything that rmcp has written, it being gone, is on stdout. -/
structure OutputOut (p : Process) : Prop where
  closed : p.io.isOpen = false
  frames : p.io.stdout.framesOf .outbound = splitKeep LF p.io.fromRmcp
  whole : ∀ t ∈ p.io.stdout.turns, t.owner = .outbound → t.Whole

/-- The ways to end well. -/
inductive EndedWell (codec : Codec) (p : Process) : Prop where
  | intercepted (b : InboundBridge.Bridge) (answers : AnswersOut codec p b)
      (returned : b.returned = true) (flag : p.io.preInitIntercepted = true)
  | refused (output : OutputOut p)
      (reason : (∃ msg, p.rmcp = .refused (.expectedInitializeRequest (some msg)) ∧
          ∀ line, synthesizePreInitErrorEnvelope codec msg = some line → p.Through .preInit) ∨
        p.rmcp = .refused (.initializeFailed INVALID_PARAMS))
  | completed (b : InboundBridge.Bridge) (answers : AnswersOut codec p b) (output : OutputOut p)
      (forwarded : p.io.forwarded = b.forwarded) (ended : p.rmcp = .ended true)

/-- A writer that is at rest and has not given up has only whole turns behind it. -/
theorem whole_of_rest {s : Stdio} (h : Sound codec s) (hgone : ¬ s.GaveUp w)
    (hwanted : s.wanted w = none) : ∀ t ∈ s.stdout.turns, t.owner = w → t.Whole := by
  rintro t ht rfl
  rcases List.mem_append.mp ht with ht | ht
  · by_contra htorn
    obtain ⟨before, after, hpast⟩ := List.append_of_mem ht
    exact hgone (h.locked.torn before t after hpast htorn).1
  · have hcurrent : s.stdout.current = some t := by simpa using ht
    have hholder := h.locked.holder t hcurrent
    rw [hwanted] at hholder
    cases hholder

theorem not_gaveUp_of_through {s : Stdio} (h : s.completion? w = some (.returned true)) :
    ¬ s.GaveUp w := by
  rintro ⟨completion, hcompletion, hne⟩
  rw [h] at hcompletion
  exact hne (Option.some.inj hcompletion).symm

theorem wanted_of_completion {s : Stdio} {completion : Completion}
    (h : s.completion? w = some completion) : s.wanted w = none := by
  cases hwanted : s.wanted w with
  | none => rfl
  | some frame =>
      rw [Stdio.completion?_of_wanted hwanted] at h
      cases h

theorem outputOut_of_through (h : Sound codec p.io) (hthrough : p.Through .outbound) :
    OutputOut p := by
  have hgone := not_gaveUp_of_through hthrough
  have hwanted := wanted_of_completion hthrough
  have hphase : p.io.outbound = .ended (.returned true) := by
    have hcompletion : p.io.completion? .outbound = some (.returned true) := hthrough
    simp only [Stdio.completion?] at hcompletion
    split at hcompletion
    · rename_i hphase
      rw [hphase, Option.some.inj hcompletion]
    · cases hcompletion
  obtain ⟨hclosed, hunread⟩ := h.passes.drained hphase
  refine ⟨hclosed, ?_, whole_of_rest h hgone hwanted⟩
  have hpassed := h.passes.passed.2 hgone
  rw [Stdio.asked_of_not_wanted hwanted] at hpassed
  rw [hpassed, h.passes.frames, hunread, splitKeep_nil, List.append_nil]

theorem exists_answersOut (h : Sound codec p.io) (hgone : ¬ p.io.GaveUp .inbound)
    (hwanted : p.io.wanted .inbound = none) :
    ∃ b, AnswersOut codec p b ∧ StdioBridges.Follows codec p.io b := by
  obtain ⟨b, hb⟩ := h.follows
  have hanswers := hb.answers.2 hgone
  rw [Stdio.asked_of_not_wanted hwanted] at hanswers
  exact ⟨b, ⟨hb.run, hanswers, whole_of_rest h hgone hwanted⟩, hb⟩

theorem endedWell_of_warranted (h : Sound codec p.io) (hresult : Warranted codec p (.ok ())) :
    EndedWell codec p := by
  rcases hresult with hset | ⟨hthrough, hreason⟩ | ⟨hended, hinbound, houtbound⟩
  · have hrest : ¬ p.io.GaveUp .inbound ∧ p.io.wanted .inbound = none := by
      obtain ⟨b, hb⟩ := h.follows
      rcases (hb.flag hset).2 with hphase | hphase
      · exact ⟨Stdio.not_gaveUp_of_none (by simp [Stdio.completion?, hphase]),
          by simp [Stdio.wanted, hphase]⟩
      · exact ⟨not_gaveUp_of_through (by simp [Stdio.completion?, hphase]),
          by simp [Stdio.wanted, hphase]⟩
    obtain ⟨b, hanswers, hb⟩ := exists_answersOut h hrest.1 hrest.2
    exact .intercepted b hanswers (hb.flag hset).1 hset
  · exact .refused (outputOut_of_through h hthrough) hreason
  · have hgone := not_gaveUp_of_through hinbound
    obtain ⟨b, hanswers, hb⟩ := exists_answersOut h hgone (wanted_of_completion hinbound)
    refine .completed b hanswers (outputOut_of_through h houtbound) ?_ hended
    have hforwards := hb.forwards.2 hgone
    have hforwarding : p.io.forwarding = [] := by
      have hcompletion : p.io.completion? .inbound = some (.returned true) := hinbound
      simp only [Stdio.completion?] at hcompletion
      split at hcompletion
      · rename_i hphase
        simp [Stdio.forwarding, hphase]
      · cases hcompletion
    rwa [hforwarding, List.append_nil] at hforwards

end

/-- One request is forwarded and answered in two chunks; then stdin ends. -/
def sampleSession : List Label :=
  [.io (.readLine (utf8 InboundBridge.initializeText ++ [LF])), .io .forward, .initResolves none,
   .loadFlag, .io (.rmcpWrites [123, 125, 10]), .io .take, .io (.acquire .outbound),
   .io (.write .outbound 2), .io (.write .outbound 1), .io (.flush .outbound), .io .readEof,
   .watch .inbound, .serviceEnds true, .io .rmcpCloses, .io .take, .drained 0, .await .inbound,
   .await .outbound, .joined false]

def Process.processEnd? (p : Process) : Option ProcessEnd :=
  match p.main with
  | .ended outcome => some (emitProcessEnd 1 0 outcome)
  | _ => none

end RustyImap.ServeLifecycle
