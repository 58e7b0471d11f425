import RustyImap.ImapOps
import RustyImap.LabelledRuns

/-!
# The cached session of a connection

`with_session` and `attempt` (`rimap-imap/src/connection/dispatch.rs`) with
`SessionGuard`, `poison` and `take_poisoned` (`connection/mod.rs`), over any
interleaving of calls on one connection.

An operation is run over what its awaits bring (`WireEvent`): the answer to a
command, the items of a stream, an error of any kind at any position, or the end
of the future.  A session is dirty when the operation stopped while a part of a
response was still to come.  An await of a body is one on a command, so a body
that is cut has a response to come.
-/

namespace RustyImap.SessionDispatch

open RustyImap.LabelledRuns RustyImap.ImapOps

/-! ## A body over the wire -/

/-- What an await of a body brings. -/
inductive WireEvent where
  | answer (reply : Reply)                            -- the command has been completed
  | item (item : Item)
  | error (error : AsyncImapError) (unread : Bool)    -- with a part of the response to come?
  | timeout                                           -- `command_timeout` elapses
  | drop                                              -- the future is dropped
deriving DecidableEq, Repr

inductive Ending where
  | returned (result : Except ImapError Unit)
  | timedOut
  | dropped

/-- How a body ended, and whether a part of a response is unread. -/
structure Ended where
  ending : Ending
  unread : Bool

inductive Awaited (β : Type) where
  | got (value : β) (rest : List WireEvent)
  | ended (ended : Ended)

/-- The await of a command without a stream; items are read by async-imap itself. -/
def awaitReply (onError : AsyncImapError → ImapError) : List WireEvent → Awaited Reply
  | [] => .ended ⟨.dropped, true⟩
  | .answer reply :: rest => .got reply rest
  | .item _ :: rest => awaitReply onError rest
  | .error e unread :: _ => .ended ⟨.returned (.error (onError e)), unread⟩
  | .timeout :: _ => .ended ⟨.timedOut, true⟩
  | .drop :: _ => .ended ⟨.dropped, true⟩

/-- The loop over a stream; `before` are the items read so far. -/
def awaitItems (check : List Item → Item → Option ImapError) :
    List Item → List WireEvent → Awaited (List Item)
  | _, [] => .ended ⟨.dropped, true⟩
  | before, .answer _ :: rest => .got before rest
  | before, .item item :: rest =>
      match check before item with
      | some e => .ended ⟨.returned (.error e), true⟩
      | none => awaitItems check (before ++ [item]) rest
  | _, .error e unread :: _ => .ended ⟨.returned (.error (mapErr e)), unread⟩
  | _, .timeout :: _ => .ended ⟨.timedOut, true⟩
  | _, .drop :: _ => .ended ⟨.dropped, true⟩

def exec : Prog Unit → List WireEvent → Ended
  | .done result, _ => ⟨.returned result, false⟩
  | .command _ onError next, events =>
      match awaitReply onError events with
      | .got reply rest => exec (next reply) rest
      | .ended ended => ended
  | .stream _ check next, events =>
      match awaitItems check [] events with
      | .got items rest => exec (next items) rest
      | .ended ended => ended

/-! ## The operations of a connection -/

inductive Idempotency where
  | readOnly
  | mutating
deriving DecidableEq, Repr

/-- The public methods that go through `with_session`. -/
inductive Operation where
  | listFolders (pattern : String)
  | listFoldersWithStatus (pattern : String)
  | status (folder : String)
  | select (folder : String) (readOnly : Bool)
  | search (folder : String) (key : Except String String)
  | threadRelated (folder : String) (key : Except String (Option String))
  | fetch (folder : String) (uids : List Uid) (items : String) (uidvalidity : Option Nat)
  | fetchBody (folder : String) (uid : Uid) (uidvalidity : Option Nat) (limit : Nat)
  | storeFlags (folder : String) (uids : List Uid) (flags : List Flag) (action : FlagAction)
      (uidvalidity : Option Nat)
  | moveMessages (src dest : String) (uids : List Uid) (uidvalidity : Option Nat)
  | appendMessage (folder : String) (message : List UInt8) (flags : List Flag)
      (keywords : List String) (limit : Nat)
  | deleteMessage (folder : String) (uid : Uid) (trash : String) (uidvalidity : Option Nat)
  | expunge (folder : String)
  | createFolder (name : String)
  | renameFolder (oldName newName : String)
  | deleteFolder (name : String)

namespace Operation

def idempotency : Operation → Idempotency
  | listFolders _ | listFoldersWithStatus _ | status _ | select _ _ | search _ _
  | threadRelated _ _ | fetch _ _ _ _ | fetchBody _ _ _ _ => .readOnly
  | storeFlags _ _ _ _ _ | moveMessages _ _ _ _ | appendMessage _ _ _ _ _
  | deleteMessage _ _ _ _ | expunge _ | createFolder _ | renameFolder _ _
  | deleteFolder _ => .mutating

/-- The first argument of `with_session`. -/
def opName : Operation → String
  | listFolders _ => "list"
  | listFoldersWithStatus _ => "list_folders_with_status"
  | status _ => "status"
  | select _ _ => "select"
  | search _ _ => "search"
  | threadRelated _ _ => "thread_related"
  | fetch _ _ _ _ => "fetch"
  | fetchBody _ _ _ _ => "fetch_body"
  | storeFlags _ _ _ _ _ => "store"
  | moveMessages _ _ _ _ => "move"
  | appendMessage _ _ _ _ _ => "append"
  | deleteMessage _ _ _ _ => "delete_message"
  | expunge _ => "expunge"
  | createFolder _ => "create_folder"
  | renameFolder _ _ => "rename_folder"
  | deleteFolder _ => "delete_folder"

/-- A search text that `quote` refuses. -/
def refusedText {α : Type} : Except String α → Except ImapError α
  | .ok a => .ok a
  | .error reason => .error (.invalidInput "search string" reason)

/-- The body, but for the value it returns. -/
def body (caps : ServerCapabilities) : Operation → Prog Unit
  | listFolders pattern => do let _ ← ImapOps.list pattern
  | listFoldersWithStatus pattern => do let _ ← ImapOps.listWithStatus pattern
  | status folder => do let _ ← ImapOps.status folder
  | select folder readOnly => do let _ ← ImapOps.select folder readOnly
  | search folder key => do let _ ← ImapOps.search folder (refusedText key)
  | threadRelated folder key => do let _ ← ImapOps.threadRelated folder (refusedText key)
  | fetch folder uids items uidvalidity => do
      let _ ← ImapOps.fetch folder uids items uidvalidity
  | fetchBody folder uid uidvalidity limit => do
      let _ ← ImapOps.fetchBodyWithLimit folder uid uidvalidity limit
  | storeFlags folder uids flags action uidvalidity => do
      let _ ← ImapOps.storeFlags folder uids flags action uidvalidity
  | moveMessages src dest uids uidvalidity => do
      let _ ← ImapOps.moveBody caps src dest uids uidvalidity
  | appendMessage folder message flags keywords limit =>
      ImapOps.append folder message flags keywords limit
  | deleteMessage folder uid trash uidvalidity => do
      let _ ← ImapOps.deleteBody caps folder uid trash uidvalidity
  | expunge folder => do let _ ← ImapOps.expungeBody folder
  | createFolder name => ImapOps.createFolder name
  | renameFolder oldName newName => ImapOps.renameFolder oldName newName
  | deleteFolder name => ImapOps.deleteFolder name

end Operation

/-! ## The connection -/

def isTransportFailure : Except ImapError Unit → Bool
  | .error .connectionLost | .error (.sizeLimit _) | .error (.timeout _) => true
  | _ => false

def shouldReconnect (idempotency : Idempotency) (result : Except ImapError Unit) : Bool :=
  idempotency == .readOnly &&
    match result with
    | .error .connectionLost => true
    | _ => false

/-- A cached session, and how the last command on it ended. -/
structure Session where
  caps : ServerCapabilities
  unread : Bool          -- dirty: a part of a response is unread
  lost : Bool            -- `ConnectionLost`
  sizeLimited : Bool     -- `SizeLimit`
deriving DecidableEq, Repr

def Session.fresh (caps : ServerCapabilities) : Session := ⟨caps, false, false, false⟩

structure Call where
  op : Operation
  retried : Bool

inductive Phase where
  | connecting
  | running
deriving DecidableEq, Repr

structure State where
  slot : Option Session
  poisoned : Bool
  precaution : Bool                   -- `poison()` was called since the flag was consumed
  queue : List Call                   -- waiting for the lock, first come first served
  holder : Option (Call × Phase)
  starts : List Session               -- the sessions that bodies were started on
  discards : List (Session × Bool)    -- discarded sessions, and whether by precaution

def State.init : State := ⟨none, false, false, [], none, [], []⟩

/-- `take_poisoned`, under the lock. -/
def takePoisoned (s : State) : State :=
  if s.poisoned then
    { s with
      slot := none
      poisoned := false
      precaution := false
      discards := s.discards ++ s.slot.toList.map fun session => (session, s.precaution) }
  else s

/-- What `with_timeout` makes of a body, for a future that lives on. -/
def Ending.outcome (op : String) : Ending → Option (Except ImapError Unit)
  | .returned result => some result
  | .timedOut => some (.error (.timeout op))
  | .dropped => none

/-- The guard is dropped armed: the body was cut or failed on the transport. -/
def guardArmed : Option (Except ImapError Unit) → Bool
  | some result => isTransportFailure result
  | none => true

def Ended.leaves (session : Session) (ended : Ended) : Session :=
  { session with
    unread := ended.unread
    lost := match ended.ending with
      | .returned (.error .connectionLost) => true
      | _ => false
    sizeLimited := match ended.ending with
      | .returned (.error (.sizeLimit _)) => true
      | _ => false }

/-- The second attempt of `with_session`, which waits for the lock again. -/
def Call.retry (call : Call) (result : Except ImapError Unit) : List Call :=
  if !call.retried && shouldReconnect call.op.idempotency result then
    [{ call with retried := true }]
  else []

inductive Label where
  | enter (op : Operation)
  | leave (i : Nat)                            -- a waiting call times out or is dropped
  | acquire
  | connect (caps : ServerCapabilities)
  | connectFails (lost : Bool)                 -- or is dropped
  | finish (events : List WireEvent)
  | poison

def step (s : State) : Label → Option State
  | .enter op => some { s with queue := s.queue ++ [⟨op, false⟩] }
  | .leave i => if i < s.queue.length then some { s with queue := s.queue.eraseIdx i } else none
  | .acquire =>
      match s.holder, s.queue with
      | none, call :: rest =>
          let s := takePoisoned { s with queue := rest }
          match s.slot with
          | some session =>
              some { s with holder := some (call, .running), starts := s.starts ++ [session] }
          | none => some { s with holder := some (call, .connecting) }
      | _, _ => none
  | .connect caps =>
      match s.holder with
      | some (call, .connecting) => some { s with
          slot := some (.fresh caps)
          holder := some (call, .running)
          starts := s.starts ++ [.fresh caps] }
      | _ => none
  | .connectFails lost =>
      match s.holder with
      | some (call, .connecting) => some { s with
          holder := none
          queue := s.queue ++ if lost then call.retry (.error .connectionLost) else [] }
      | _ => none
  | .finish events =>
      match s.holder, s.slot with
      | some (call, .running), some session =>
          let ended := exec (call.op.body session.caps) events
          let outcome := ended.ending.outcome call.op.opName
          some { s with
            slot := some (ended.leaves session)
            poisoned := s.poisoned || guardArmed outcome
            holder := none
            queue := s.queue ++ (outcome.map call.retry).getD [] }
      | _, _ => none
  | .poison => some { s with poisoned := true, precaution := true }

/-! ## How a body can end -/

/-- The error map of a command: a dead connection is reported as such, and nothing
    is reported as a timeout. -/
structure Relays (onError : AsyncImapError → ImapError) : Prop where
  lost : ∀ e, isConnectionLost e = true → onError e = .connectionLost
  noTimeout : ∀ e op, onError e ≠ .timeout op

/-- A program that leaves timeouts to `with_timeout` and a stream only over a size
    limit. -/
def Orderly {α : Type} : Prog α → Prop
  | .done result => ∀ op, result ≠ .error (.timeout op)
  | .command _ onError next => Relays onError ∧ ∀ reply, Orderly (next reply)
  | .stream _ check next =>
      (∀ before item e, check before item = some e → ∃ limit, e = .sizeLimit limit) ∧
        ∀ items, Orderly (next items)

/-- No error but a dead connection leaves a part of a response unread. -/
def errorsDrained (events : List WireEvent) : Bool :=
  events.all fun event =>
    match event with
    | .error e true => isConnectionLost e
    | _ => true

/-- What the end of an orderly body says about the session. -/
structure Ended.Sound (ended : Ended) (drained : Bool) : Prop where
  cut : ended.ending = .timedOut ∨ ended.ending = .dropped → ended.unread = true
  noTimeout : ∀ op, ended.ending ≠ .returned (.error (.timeout op))
  armed : drained = true → ended.unread = true → ∀ op, guardArmed (ended.ending.outcome op) = true

theorem relays_mapErr : Relays mapErr where
  lost e he := by simp [mapErr, he]
  noTimeout e op := by
    unfold mapErr
    split <;> nofun

theorem relays_mapSelectErr (folder : String) : Relays (mapSelectErr folder) where
  lost e he := by
    cases e with
    | no message => cases he
    | io kind => exact relays_mapErr.lost _ he
    | bad message => cases he
    | connectionLost => exact relays_mapErr.lost _ he
    | parse => cases he
    | validate => cases he
    | append => cases he
  noTimeout e op := by
    unfold mapSelectErr
    split
    · nofun
    · exact relays_mapErr.noTimeout e op

theorem sound_cut {drained : Bool} (ending : Ending)
    (h : ending = .timedOut ∨ ending = .dropped) : Ended.Sound ⟨ending, true⟩ drained where
  cut _ := rfl
  noTimeout op := by
    rcases h with rfl | rfl <;> nofun
  armed _ _ op := by
    rcases h with rfl | rfl <;> rfl

theorem sound_error {onError : AsyncImapError → ImapError} (h : Relays onError)
    (e : AsyncImapError) (unread : Bool) :
    Ended.Sound ⟨.returned (.error (onError e)), unread⟩ (!unread || isConnectionLost e) where
  cut hcut := by
    rcases hcut with hcut | hcut <;> cases hcut
  noTimeout op := by
    intro heq
    exact h.noTimeout e op (by simpa using heq)
  armed hdrained hunread op := by
    have hlost : isConnectionLost e = true := by
      simpa [show unread = true from hunread] using hdrained
    rw [h.lost e hlost]
    rfl

theorem Ended.Sound.mono {ended : Ended} {drained drained' : Bool} (h : ended.Sound drained)
    (hle : drained' = true → drained = true) : ended.Sound drained' where
  cut := h.cut
  noTimeout := h.noTimeout
  armed hdrained := h.armed (hle hdrained)

theorem errorsDrained_cons {event : WireEvent} {rest : List WireEvent}
    (h : errorsDrained (event :: rest) = true) : errorsDrained rest = true := by
  rw [errorsDrained, List.all_cons, Bool.and_eq_true] at h
  exact h.2

theorem errorsDrained_error {e : AsyncImapError} {unread : Bool} {rest : List WireEvent}
    (h : errorsDrained (.error e unread :: rest) = true) :
    (!unread || isConnectionLost e) = true := by
  rw [errorsDrained, List.all_cons, Bool.and_eq_true] at h
  cases unread with
  | false => rfl
  | true => exact h.1

theorem awaitReply_ended {onError : AsyncImapError → ImapError} (hrelays : Relays onError)
    {events : List WireEvent} {ended : Ended} (h : awaitReply onError events = .ended ended) :
    ended.Sound (errorsDrained events) := by
  induction events with
  | nil =>
      cases h
      exact sound_cut _ (.inr rfl)
  | cons event rest ih =>
      cases event with
      | answer reply => cases h
      | item item => exact (ih h).mono errorsDrained_cons
      | error e unread =>
          cases h
          exact (sound_error hrelays e unread).mono errorsDrained_error
      | timeout =>
          cases h
          exact sound_cut _ (.inl rfl)
      | drop =>
          cases h
          exact sound_cut _ (.inr rfl)

theorem awaitReply_got {onError : AsyncImapError → ImapError} {events rest : List WireEvent}
    {reply : Reply} (h : awaitReply onError events = .got reply rest)
    (hdrained : errorsDrained events = true) : errorsDrained rest = true := by
  induction events with
  | nil => cases h
  | cons event events ih =>
      have htail := errorsDrained_cons hdrained
      cases event with
      | answer reply =>
          cases h
          exact htail
      | item item => exact ih h htail
      | error e unread => cases h
      | timeout => cases h
      | drop => cases h

theorem sound_sizeLimit (limit : Nat) (drained : Bool) :
    Ended.Sound ⟨.returned (.error (.sizeLimit limit)), true⟩ drained where
  cut _ := rfl
  noTimeout _ := nofun
  armed _ _ _ := rfl

theorem awaitItems_ended {check : List Item → Item → Option ImapError}
    (hcheck : ∀ before item e, check before item = some e → ∃ limit, e = .sizeLimit limit)
    {events : List WireEvent} {before : List Item} {ended : Ended}
    (h : awaitItems check before events = .ended ended) : ended.Sound (errorsDrained events) := by
  induction events generalizing before with
  | nil =>
      cases h
      exact sound_cut _ (.inr rfl)
  | cons event rest ih =>
      cases event with
      | answer reply => cases h
      | item item =>
          simp only [awaitItems] at h
          split at h
          · rename_i e he
            cases h
            obtain ⟨limit, rfl⟩ := hcheck _ _ _ he
            exact sound_sizeLimit limit _
          · exact (ih h).mono errorsDrained_cons
      | error e unread =>
          cases h
          exact (sound_error relays_mapErr e unread).mono errorsDrained_error
      | timeout =>
          cases h
          exact sound_cut _ (.inl rfl)
      | drop =>
          cases h
          exact sound_cut _ (.inr rfl)

theorem awaitItems_got {check : List Item → Item → Option ImapError}
    {events rest : List WireEvent} {before items : List Item}
    (h : awaitItems check before events = .got items rest)
    (hdrained : errorsDrained events = true) : errorsDrained rest = true := by
  induction events generalizing before with
  | nil => cases h
  | cons event events ih =>
      have htail := errorsDrained_cons hdrained
      cases event with
      | answer reply =>
          cases h
          exact htail
      | item item =>
          simp only [awaitItems] at h
          split at h
          · cases h
          · exact ih h htail
      | error e unread => cases h
      | timeout => cases h
      | drop => cases h

/-- **The end of an orderly body is sound.** -/
theorem sound_exec {p : Prog Unit} (h : Orderly p) (events : List WireEvent) :
    (exec p events).Sound (errorsDrained events) := by
  induction p generalizing events with
  | done result =>
      refine ⟨?_, ?_, ?_⟩
      · intro hcut
        rcases hcut with hcut | hcut <;> cases hcut
      · intro op heq
        exact h op (by simpa [exec] using heq)
      · intro _ hunread
        cases hunread
  | command cmd onError next ih =>
      obtain ⟨hrelays, hnext⟩ := h
      rw [exec]
      split
      · rename_i reply rest hgot
        exact (ih reply (hnext reply) rest).mono (awaitReply_got hgot)
      · rename_i ended hended
        exact awaitReply_ended hrelays hended
  | stream cmd check next ih =>
      obtain ⟨hcheck, hnext⟩ := h
      rw [exec]
      split
      · rename_i items rest hgot
        exact (ih items (hnext items) rest).mono (awaitItems_got hgot)
      · rename_i ended hended
        exact awaitItems_ended hcheck hended

/-! ## The operations are orderly -/

section

variable {α β : Type}

theorem orderly_pure (a : α) : Orderly (pure a : Prog α) := nofun

theorem orderly_throw {e : ImapError} (h : ∀ op, e ≠ .timeout op) :
    Orderly (Prog.throw e : Prog α) := by
  intro op heq
  exact h op (by simpa using heq)

theorem orderly_bind {p : Prog α} {f : α → Prog β} (hp : Orderly p) (hf : ∀ a, Orderly (f a)) :
    Orderly (p >>= f) := by
  change Orderly (p.bind f)
  induction p with
  | done result =>
      cases result with
      | ok a => exact hf a
      | error e =>
          intro op heq
          cases heq
          exact hp op rfl
  | command cmd onError next ih => exact ⟨hp.1, fun reply => ih reply (hp.2 reply)⟩
  | stream cmd check next ih => exact ⟨hp.1, fun items => ih items (hp.2 items)⟩

theorem orderly_map {p : Prog α} (hp : Orderly p) (f : α → β) : Orderly (f <$> p) :=
  orderly_bind hp fun a => orderly_pure (f a)

theorem orderly_ite {c : Prop} [Decidable c] {p q : Prog α} (hp : Orderly p) (hq : Orderly q) :
    Orderly (if c then p else q) := by
  split
  · exact hp
  · exact hq

theorem orderly_send (cmd : Command) {onError : AsyncImapError → ImapError}
    (h : Relays onError) : Orderly (send cmd onError) :=
  ⟨h, fun reply => orderly_pure reply⟩

theorem orderly_collect (cmd : Command) : Orderly (collect cmd) :=
  ⟨nofun, fun items => orderly_pure items⟩

theorem orderly_validateServerFolderName (name : String) :
    Orderly (validateServerFolderName name) := by
  unfold validateServerFolderName
  split
  · exact orderly_pure ()
  · exact orderly_throw nofun

theorem orderly_validateFolderName (name : String) : Orderly (validateFolderName name) :=
  orderly_ite (orderly_pure ()) (orderly_throw nofun)

theorem orderly_validateKeyword (keyword : String) : Orderly (validateKeyword keyword) := by
  apply orderly_ite
  · exact orderly_throw nofun
  · split
    · exact orderly_pure ()
    · exact orderly_ite (orderly_throw nofun) (orderly_throw nofun)

theorem orderly_checkFlags (flags : List Flag) : Orderly (checkFlags flags) := by
  induction flags with
  | nil => exact orderly_pure ()
  | cons flag rest ih =>
      cases flag with
      | keyword name => exact orderly_bind (orderly_validateKeyword name) fun _ => ih
      | seen | answered | flagged | deleted | draft | recent => exact ih

theorem orderly_checkKeywords (keywords : List String) : Orderly (checkKeywords keywords) := by
  induction keywords with
  | nil => exact orderly_pure ()
  | cons keyword rest ih => exact orderly_bind (orderly_validateKeyword keyword) fun _ => ih

theorem orderly_checkUidvalidity (folder : String) (expected observed : Option Nat) :
    Orderly (checkUidvalidity folder expected observed) := by
  unfold checkUidvalidity
  split
  · exact orderly_ite (orderly_throw nofun) (orderly_pure ())
  · exact orderly_pure ()

theorem orderly_requireUidvalidity (folder : String) (expected observed : Option Nat) :
    Orderly (requireUidvalidity folder expected observed) := by
  unfold requireUidvalidity
  split
  · exact orderly_pure ()
  · exact orderly_ite (orderly_pure ()) (orderly_throw nofun)
  · exact orderly_throw nofun

theorem orderly_select (folder : String) (readOnly : Bool) :
    Orderly (ImapOps.select folder readOnly) :=
  orderly_bind (orderly_validateServerFolderName folder) fun _ =>
    orderly_send _ (relays_mapSelectErr folder)

theorem orderly_status (folder : String) : Orderly (ImapOps.status folder) :=
  orderly_bind (orderly_validateServerFolderName folder) fun _ => orderly_send _ relays_mapErr

theorem orderly_list (pattern : String) : Orderly (ImapOps.list pattern) :=
  orderly_bind (orderly_collect _) fun _ => orderly_pure _

theorem orderly_statusOfEach (folders : List Item) : Orderly (statusOfEach folders) := by
  induction folders with
  | nil => exact orderly_pure []
  | cons folder rest ih =>
      rw [statusOfEach]
      apply orderly_ite
      · exact orderly_bind (orderly_map (orderly_status _) some) fun _ =>
          orderly_bind ih fun out => orderly_pure _
      · exact orderly_bind (orderly_pure none) fun _ =>
          orderly_bind ih fun out => orderly_pure _

theorem orderly_refusedText (key : Except String α) :
    Orderly (.done (Operation.refusedText key)) := by
  intro op heq
  cases key with
  | ok a => cases heq
  | error reason => cases heq

theorem orderly_search (folder : String) (key : Except String String) :
    Orderly (ImapOps.search folder (Operation.refusedText key)) := by
  apply orderly_bind (orderly_select folder true)
  intro selected
  apply orderly_bind (orderly_refusedText key)
  intro key
  exact orderly_bind (orderly_send _ relays_mapErr) fun found => orderly_pure _

theorem orderly_threadRelated (folder : String) (key : Except String (Option String)) :
    Orderly (ImapOps.threadRelated folder (Operation.refusedText key)) := by
  apply orderly_bind (orderly_refusedText key)
  intro key
  cases key with
  | none => exact orderly_bind (orderly_select folder true) fun selected => orderly_pure _
  | some key => exact orderly_search folder (.ok key)

theorem orderly_fetch (folder : String) (uids : List Uid) (items : String)
    (uidvalidity : Option Nat) : Orderly (ImapOps.fetch folder uids items uidvalidity) := by
  apply orderly_bind (orderly_select folder true)
  intro selected
  apply orderly_bind (orderly_checkUidvalidity _ _ _)
  intro _
  apply orderly_ite (orderly_pure _)
  exact orderly_bind (orderly_collect _) fun messages => orderly_pure _

theorem orderly_preflightFetchSize (folder : String) (uid : Uid) (uidvalidity : Option Nat) :
    Orderly (preflightFetchSize folder uid uidvalidity) := by
  apply orderly_bind (orderly_select folder true)
  intro selected
  apply orderly_bind (orderly_requireUidvalidity _ _ _)
  intro _
  exact orderly_bind (orderly_collect _) fun messages => orderly_pure _

theorem orderly_preflightSizeCheck (serverSize : Option Nat) (limit : Nat) :
    Orderly (preflightSizeCheck serverSize limit) := by
  cases serverSize with
  | none => exact orderly_pure ()
  | some size => exact orderly_ite (orderly_throw nofun) (orderly_pure ())

/-- The stream of `fetch_body` is left over the size limit only. -/
theorem projectSize_eq_some {limit : Nat} {before : List Item} {item : Item} {e : ImapError}
    (h : projectSize limit before item = some e) : ∃ limit, e = .sizeLimit limit := by
  unfold projectSize at h
  split at h
  · split at h
    · exact ⟨limit, (Option.some.inj h).symm⟩
    · cases h
  · cases h

theorem orderly_fetchBody (folder : String) (uid : Uid) (limit : Nat)
    (uidvalidity : Option Nat) : Orderly (ImapOps.fetchBody folder uid limit uidvalidity) := by
  apply orderly_bind (orderly_select folder true)
  intro selected
  apply orderly_bind (orderly_requireUidvalidity _ _ _)
  intro _
  apply orderly_bind
  · exact ⟨fun _ _ _ h => projectSize_eq_some h, fun items => orderly_pure items⟩
  · intro messages
    exact orderly_ite (orderly_pure _) (orderly_throw nofun)

theorem orderly_store (uids : List Uid) (flags : List Flag) (action : FlagAction) :
    Orderly (ImapOps.store uids flags action) := by
  apply orderly_ite
  · exact orderly_throw nofun
  · apply orderly_ite (orderly_pure _)
    apply orderly_bind (orderly_checkFlags flags)
    intro _
    exact orderly_bind (orderly_collect _) fun items => orderly_pure _

theorem orderly_runExpunge (uids : List Uid) (strategy : ExpungeStrategy) :
    Orderly (runExpunge uids strategy) := by
  cases strategy with
  | «scoped» => exact orderly_bind (orderly_collect _) fun _ => orderly_pure ()
  | folderWide => exact orderly_bind (orderly_collect _) fun _ => orderly_pure ()

theorem orderly_requireKnown (caps : ServerCapabilities) (op : String) :
    Orderly (caps.requireKnown op) := by
  cases caps with
  | known hasMove hasUidplus => exact orderly_pure _
  | unknown => exact orderly_throw nofun

theorem orderly_copyDeleteFallback (dest : String) (uids : List Uid) (hasUidplus : Bool) :
    Orderly (copyDeleteFallback dest uids hasUidplus) := by
  apply orderly_bind (orderly_validateServerFolderName dest)
  intro _
  apply orderly_bind (orderly_send _ relays_mapErr)
  intro _
  apply orderly_bind (orderly_status dest)
  intro destStatus
  apply orderly_bind (orderly_store _ _ _)
  intro _
  exact orderly_bind (orderly_runExpunge _ _) fun _ => orderly_pure _

theorem orderly_guardSource (src : String) (expected : Option Nat) :
    Orderly (guardSource src expected) := by
  cases expected with
  | none => exact orderly_pure none
  | some expected =>
      apply orderly_bind (orderly_status src)
      intro status
      split
      · exact orderly_ite (orderly_throw nofun) (orderly_pure _)
      · exact orderly_pure none

theorem orderly_moveMessages (caps : ServerCapabilities) (src dest : String) (uids : List Uid)
    (uidvalidity : Option Nat) : Orderly (ImapOps.moveMessages caps src dest uids uidvalidity) := by
  apply orderly_bind (orderly_validateServerFolderName dest)
  intro _
  apply orderly_ite
  · exact orderly_throw nofun
  · apply orderly_ite (orderly_pure _)
    apply orderly_bind (orderly_requireKnown caps "move")
    intro pair
    apply orderly_bind (orderly_guardSource src uidvalidity)
    intro sourceUidValidity
    apply orderly_ite
    · exact orderly_bind (orderly_copyDeleteFallback _ _ _) fun _ => orderly_pure _
    · exact orderly_bind (orderly_send _ relays_mapErr) fun _ => orderly_pure _

theorem orderly_moveToTrash (uid : Uid) (trash : String) (hasMove hasUidplus : Bool) :
    Orderly (moveToTrash uid trash hasMove hasUidplus) := by
  apply orderly_ite
  · exact orderly_bind (orderly_send _ relays_mapErr) fun _ => orderly_pure ()
  · exact orderly_bind (orderly_send _ relays_mapErr) fun _ => orderly_runExpunge _ _

theorem orderly_deleteMessage (caps : ServerCapabilities) (uid : Uid) (source trash : String) :
    Orderly (ImapOps.deleteMessage caps uid source trash) := by
  apply orderly_bind (orderly_validateFolderName source)
  intro _
  apply orderly_bind (orderly_validateFolderName trash)
  intro _
  apply orderly_ite
  · exact orderly_bind (orderly_store _ _ _) fun _ => orderly_pure _
  · apply orderly_bind (orderly_requireKnown caps "delete_message")
    intro pair
    apply orderly_bind (orderly_store _ _ _)
    intro _
    exact orderly_bind (orderly_moveToTrash _ _ _ _) fun _ => orderly_pure _

theorem orderly_countDeleted (folder : String) : Orderly (countDeleted folder) := by
  apply orderly_bind (orderly_validateFolderName folder)
  intro _
  apply orderly_bind (orderly_select folder true)
  intro _
  exact orderly_bind (orderly_send _ relays_mapErr) fun found => orderly_pure _

theorem orderly_append (folder : String) (message : List UInt8) (flags : List Flag)
    (keywords : List String) (limit : Nat) :
    Orderly (ImapOps.append folder message flags keywords limit) := by
  apply orderly_bind
  · exact orderly_ite (orderly_throw nofun) (orderly_pure ())
  · intro _
    apply orderly_bind (orderly_checkFlags flags)
    intro _
    apply orderly_bind (orderly_checkKeywords keywords)
    intro _
    exact orderly_bind (orderly_send _ relays_mapErr) fun _ => orderly_pure ()

/-- A body that drops its value. -/
theorem orderly_discard {p : Prog α} (hp : Orderly p) : Orderly (p >>= fun _ => pure ()) :=
  orderly_bind hp fun _ => orderly_pure ()

/-- **Every operation is orderly.** -/
theorem orderly_body (caps : ServerCapabilities) (op : Operation) : Orderly (op.body caps) := by
  cases op with
  | listFolders pattern => exact orderly_discard (orderly_list pattern)
  | listFoldersWithStatus pattern =>
      exact orderly_discard (orderly_bind (orderly_list pattern) orderly_statusOfEach)
  | status folder => exact orderly_discard (orderly_status folder)
  | select folder readOnly => exact orderly_discard (orderly_select folder readOnly)
  | search folder key => exact orderly_discard (orderly_search folder key)
  | threadRelated folder key => exact orderly_discard (orderly_threadRelated folder key)
  | fetch folder uids items uidvalidity =>
      exact orderly_discard (orderly_fetch folder uids items uidvalidity)
  | fetchBody folder uid uidvalidity limit =>
      apply orderly_discard
      apply orderly_bind (orderly_preflightFetchSize folder uid uidvalidity)
      intro serverSize
      apply orderly_bind (orderly_preflightSizeCheck serverSize limit)
      intro _
      exact orderly_fetchBody folder uid limit uidvalidity
  | storeFlags folder uids flags action uidvalidity =>
      apply orderly_discard
      apply orderly_bind (orderly_select folder false)
      intro selected
      apply orderly_bind (orderly_checkUidvalidity _ _ _)
      intro _
      exact orderly_bind (orderly_store uids flags action) fun updated => orderly_pure _
  | moveMessages src dest uids uidvalidity =>
      apply orderly_discard
      exact orderly_bind (orderly_select src false) fun _ =>
        orderly_moveMessages caps src dest uids uidvalidity
  | appendMessage folder message flags keywords limit =>
      exact orderly_append folder message flags keywords limit
  | deleteMessage folder uid trash uidvalidity =>
      apply orderly_discard
      apply orderly_bind (orderly_select folder false)
      intro selected
      apply orderly_bind (orderly_checkUidvalidity _ _ _)
      intro _
      exact orderly_bind (orderly_deleteMessage caps uid folder trash) fun result =>
        orderly_pure _
  | expunge folder =>
      apply orderly_discard
      apply orderly_bind (orderly_countDeleted folder)
      intro deletedUids
      apply orderly_bind (orderly_select folder false)
      intro _
      exact orderly_bind (orderly_collect _) fun expunged => orderly_pure _
  | createFolder name =>
      exact orderly_bind (orderly_validateFolderName name) fun _ =>
        orderly_discard (orderly_send _ relays_mapErr)
  | renameFolder oldName newName =>
      apply orderly_bind (orderly_validateFolderName oldName)
      intro _
      exact orderly_bind (orderly_validateFolderName newName) fun _ =>
        orderly_discard (orderly_send _ relays_mapErr)
  | deleteFolder name =>
      exact orderly_bind (orderly_validateFolderName name) fun _ =>
        orderly_discard (orderly_send _ relays_mapErr)

end

/-! ## Runs -/

/-- The last command on the session left it dirty or lost, or ended over a size
    limit. -/
def Session.spoiled (session : Session) : Bool :=
  session.unread || session.lost || session.sizeLimited

/-- The condition on a step: no error but a dead connection cuts a response short. -/
def drainsErrors : Label → Bool
  | .finish events => errorsDrained events
  | _ => true

/-- The flag and the slot, by who holds the lock. -/
structure Inv (s : State) : Prop where
  starts : ∀ session ∈ s.starts, session.unread = false
  discards : ∀ entry ∈ s.discards, entry.2 = true ∨ entry.1.spoiled = true
  -- the flag is up over a dirty session that nobody holds
  free_dirty : s.holder = none → ∀ session, s.slot = some session → session.unread = true →
    s.poisoned = true
  -- and it is up for a reason
  reason : s.poisoned = true → s.precaution = true ∨
    s.holder = none ∧ ∀ session, s.slot = some session → session.spoiled = true
  connecting : ∀ call, s.holder = some (call, .connecting) → s.slot = none

theorem inv_init : Inv .init where
  starts := nofun
  discards := nofun
  free_dirty := nofun
  reason := nofun
  connecting := nofun

/-- A guard that is dropped armed leaves a spoiled session. -/
theorem spoiled_of_armed {ended : Ended} {drained : Bool} (h : ended.Sound drained) {op : String}
    (harmed : guardArmed (ended.ending.outcome op) = true) (session : Session) :
    (ended.leaves session).spoiled = true := by
  obtain ⟨ending, unread⟩ := ended
  cases ending with
  | timedOut =>
      obtain rfl : unread = true := h.cut (.inl rfl)
      rfl
  | dropped =>
      obtain rfl : unread = true := h.cut (.inr rfl)
      rfl
  | returned result =>
      cases result with
      | ok value => cases harmed
      | error e =>
          cases e with
          | connectionLost => simp [Ended.leaves, Session.spoiled]
          | sizeLimit limit => simp [Ended.leaves, Session.spoiled]
          | timeout op' => exact absurd rfl (h.noTimeout op')
          | protocol _ | capabilitiesUnknown _ | folderNotFound _ | invalidInput _ _
          | batchTooLarge _ _ | uidValidityChanged _ _ _ | uidValidityUnavailable _ =>
              cases harmed

/-- What `take_poisoned` hands on: a clean session or none, and no flag. -/
theorem inv_takePoisoned {s : State} (h : Inv s) :
    Inv (takePoisoned s) ∧ (takePoisoned s).poisoned = false := by
  unfold takePoisoned
  by_cases hpoisoned : s.poisoned = true
  · rw [if_pos hpoisoned]
    refine ⟨⟨h.starts, ?_, nofun, nofun, fun _ _ => rfl⟩, rfl⟩
    intro entry hentry
    rcases List.mem_append.mp hentry with hentry | hentry
    · exact h.discards entry hentry
    · obtain ⟨session, hsession, rfl⟩ := List.mem_map.mp hentry
      rcases h.reason hpoisoned with hprecaution | ⟨-, hspoiled⟩
      · exact .inl hprecaution
      · exact .inr (hspoiled session (by simpa using hsession))
  · rw [if_neg hpoisoned]
    exact ⟨h, by simpa using hpoisoned⟩

theorem holder_takePoisoned (s : State) : (takePoisoned s).holder = s.holder := by
  unfold takePoisoned
  split <;> rfl

/-- A body that starts on a clean session keeps the log of starts clean. -/
theorem starts_concat {s : State} (h : Inv s) {session : Session}
    (hclean : session.unread = false) : ∀ other ∈ s.starts ++ [session], other.unread = false := by
  intro other hother
  rcases List.mem_append.mp hother with hother | hother
  · exact h.starts other hother
  · rw [List.mem_singleton.mp hother]
    exact hclean

theorem inv_acquire {s t : State} (h : Inv s) (hstep : step s .acquire = some t) : Inv t := by
  simp only [step] at hstep
  split at hstep
  · rename_i call rest hholder hqueue
    have hqueued : Inv { s with queue := rest } :=
      ⟨h.starts, h.discards, h.free_dirty, h.reason, h.connecting⟩
    obtain ⟨htaken, hflag⟩ := inv_takePoisoned hqueued
    have hfree : (takePoisoned { s with queue := rest }).holder = none := by
      rw [holder_takePoisoned]
      exact hholder
    have hreason (p : Prop) : (takePoisoned { s with queue := rest }).poisoned = true → p := by
      rw [hflag]
      intro hcontra
      cases hcontra
    split at hstep
    · rename_i session hslot
      cases hstep
      -- a dirty session would have had the flag up
      have hclean : session.unread = false := by
        by_contra hdirty
        exact hreason False (htaken.free_dirty hfree session hslot (by simpa using hdirty))
      refine ⟨starts_concat htaken hclean, htaken.discards, nofun, hreason _, ?_⟩
      rintro other ⟨⟩
    · rename_i hslot
      cases hstep
      exact ⟨htaken.starts, htaken.discards, nofun, hreason _, fun _ _ => hslot⟩
  · cases hstep

theorem inv_finish {s t : State} {events : List WireEvent} (h : Inv s)
    (hdrained : errorsDrained events = true) (hstep : step s (.finish events) = some t) :
    Inv t := by
  simp only [step] at hstep
  split at hstep
  · rename_i call session hholder hslot
    cases hstep
    have hsound := sound_exec (orderly_body session.caps call.op) events
    rw [hdrained] at hsound
    refine ⟨h.starts, h.discards, ?_, ?_, nofun⟩
    · rintro - _ ⟨rfl⟩ hunread
      rw [hsound.armed rfl hunread, Bool.or_true]
    · intro hpoisoned
      rcases Bool.or_eq_true_iff.mp hpoisoned with hpoisoned | harmed
      · rcases h.reason hpoisoned with hprecaution | ⟨hfree, -⟩
        · exact .inl hprecaution
        · rw [hholder] at hfree
          cases hfree
      · refine .inr ⟨rfl, ?_⟩
        rintro _ ⟨rfl⟩
        exact spoiled_of_armed hsound harmed session
  · cases hstep

theorem inv_step (s : State) (a : Label) (t : State) (h : Inv s) (hok : drainsErrors a = true)
    (hstep : step s a = some t) : Inv t := by
  cases a with
  | enter op =>
      cases hstep
      exact ⟨h.starts, h.discards, h.free_dirty, h.reason, h.connecting⟩
  | leave i =>
      simp only [step] at hstep
      split at hstep
      · cases hstep
        exact ⟨h.starts, h.discards, h.free_dirty, h.reason, h.connecting⟩
      · cases hstep
  | acquire => exact inv_acquire h hstep
  | connect caps =>
      simp only [step] at hstep
      split at hstep
      · rename_i call hholder
        cases hstep
        refine ⟨starts_concat h rfl, h.discards, nofun, ?_, ?_⟩
        · intro hpoisoned
          rcases h.reason hpoisoned with hprecaution | ⟨hfree, -⟩
          · exact .inl hprecaution
          · rw [hholder] at hfree
            cases hfree
        · rintro other ⟨⟩
      · cases hstep
  | connectFails lost =>
      simp only [step] at hstep
      split at hstep
      · rename_i call hholder
        cases hstep
        have hslot := h.connecting call hholder
        refine ⟨h.starts, h.discards, ?_, ?_, nofun⟩
        · intro _ session hsession
          rw [hslot] at hsession
          cases hsession
        · intro hpoisoned
          rcases h.reason hpoisoned with hprecaution | ⟨hfree, -⟩
          · exact .inl hprecaution
          · rw [hholder] at hfree
            cases hfree
      · cases hstep
  | finish events => exact inv_finish h hok hstep
  | poison =>
      cases hstep
      exact ⟨h.starts, h.discards, fun _ _ _ _ => rfl, fun _ => .inl rfl, h.connecting⟩

/-- The first call is dropped while its messages come in; the one queued behind it
    takes the flag and connects again. -/
def droppedFetchRun : List Label :=
  [.enter (.fetch "INBOX" [7] "FLAGS" none), .enter (.status "INBOX"), .acquire, .connect .unknown,
    .finish [.answer ⟨none, []⟩, .item {}, .drop], .acquire, .connect .unknown]

/-- A message that cannot be read ends the first call, which disarms its guard. -/
def unreadableItemRun : List Label :=
  [.enter (.fetch "INBOX" [7] "FLAGS" none), .enter (.status "INBOX"), .acquire, .connect .unknown,
    .finish [.answer ⟨none, []⟩, .item {}, .error (.io .other) true], .acquire]

/-- A message over the size limit is refused before anything is sent. -/
def oversizedAppendRun : List Label :=
  [.enter (.appendMessage "Drafts" [0x2E] [] [] 0), .enter (.status "INBOX"), .acquire,
    .connect .unknown, .finish [], .acquire]

end RustyImap.SessionDispatch
