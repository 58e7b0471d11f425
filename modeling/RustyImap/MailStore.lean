import Mathlib.Data.List.Perm.Subperm
import RustyImap.ImapOps

/-!
# Move and delete over the contents of mailboxes

`move_messages` and `delete_message` (`rimap-imap/src/ops/`) as they are sent by
`connection/dispatch.rs`, run over a store of mailboxes.  A command is atomic and
does what RFC 3501, RFC 4315 and RFC 6851 say; a run may stop at any command, with
the command done or not.

No mail is lost when the messages to be kept can be found, one by one, among the
messages of the two mailboxes afterwards.  Contents are of any type.
-/

namespace RustyImap.MailStore

open RustyImap.ImapOps

variable {γ : Type}

/-! ## Mailboxes -/

structure Message (γ : Type) where
  uid : Uid
  content : γ
  flags : List Flag

structure Mailbox (γ : Type) where
  messages : List (Message γ)
  uidNext : Uid

/-- How a server picks the UID of the next message, given UIDNEXT. -/
structure UidPolicy where
  assign : Uid → Uid
  le_assign : ∀ uidNext, uidNext ≤ assign uidNext

/-- The messages as they come in: with UIDs of their own and all else kept. -/
def copies (policy : UidPolicy) : Uid → List (Message γ) → List (Message γ)
  | _, [] => []
  | uidNext, m :: rest =>
      { m with uid := policy.assign uidNext } :: copies policy (policy.assign uidNext + 1) rest

def uidNextAfter (policy : UidPolicy) : Uid → List (Message γ) → Uid
  | uidNext, [] => uidNext
  | uidNext, _ :: rest => uidNextAfter policy (policy.assign uidNext + 1) rest

namespace Mailbox

/-- The messages that a UID set names; an absent UID names nothing. -/
def listed (box : Mailbox γ) (uids : List Uid) : List (Message γ) :=
  box.messages.filter fun m => m.uid ∈ uids

def unlisted (box : Mailbox γ) (uids : List Uid) : List (Message γ) :=
  box.messages.filter fun m => m.uid ∉ uids

def receive (policy : UidPolicy) (box : Mailbox γ) (incoming : List (Message γ)) : Mailbox γ :=
  ⟨box.messages ++ copies policy box.uidNext incoming, uidNextAfter policy box.uidNext incoming⟩

end Mailbox

def FlagAction.apply (flags : List Flag) : FlagAction → List Flag → List Flag
  | .add, old => old ++ flags.filter fun flag => flag ∉ old
  | .remove, old => old.filter fun flag => flag ∉ flags

namespace Message

def deleted (m : Message γ) : Bool := m.flags.contains .deleted

def store (uids : List Uid) (flags : List Flag) (action : FlagAction) (m : Message γ) :
    Message γ :=
  if m.uid ∈ uids then { m with flags := FlagAction.apply flags action m.flags } else m

end Message

namespace Mailbox

def store (box : Mailbox γ) (uids : List Uid) (flags : List Flag) (action : FlagAction) :
    Mailbox γ :=
  { box with messages := box.messages.map (Message.store uids flags action) }

/-- What is removed is flagged `\Deleted` and in the scope. -/
def expunge (box : Mailbox γ) (scope : Message γ → Bool) : Mailbox γ :=
  { box with messages := box.messages.filter fun m => !(m.deleted && scope m) }

end Mailbox

/-! ## The server -/

/-- INBOX is the one name that is read in any case. -/
def mailboxName (name : String) : String :=
  if eqIgnoreAsciiCase name "INBOX" then "INBOX" else name

structure Store (γ : Type) where
  mailboxes : String → Option (Mailbox γ)
  selected : Option String

namespace Store

def put (st : Store γ) (name : String) (box : Mailbox γ) : Store γ :=
  { st with mailboxes := fun other => if other = name then some box else st.mailboxes other }

def messages (st : Store γ) (name : String) : List (Message γ) :=
  ((st.mailboxes name).map Mailbox.messages).getD []

/-- A change of the selected mailbox. -/
def change (st : Store γ) (f : Mailbox γ → Mailbox γ) : Option (Store γ) := do
  let name ← st.selected
  let box ← st.mailboxes name
  some (st.put name (f box))

end Store

/-- A completed command; none when the server says NO or BAD. -/
def serve (policy : UidPolicy) (st : Store γ) : Command → Option (Store γ)
  | .select folder false => do
      let _ ← st.mailboxes (mailboxName folder)
      some { st with selected := some (mailboxName folder) }
  | .status folder => do
      let _ ← st.mailboxes (mailboxName folder)
      some st
  | .uidStore uids flags action => st.change fun box => box.store uids flags action
  | .uidCopy uids dest => do
      let name ← st.selected
      let box ← st.mailboxes name
      let target ← st.mailboxes (mailboxName dest)
      some (st.put (mailboxName dest) (target.receive policy (box.listed uids)))
  | .uidMove uids dest => do
      let name ← st.selected
      let box ← st.mailboxes name
      -- the messages leave before they arrive, which matters for a move in place
      let left := st.put name { box with messages := box.unlisted uids }
      let target ← left.mailboxes (mailboxName dest)
      some (left.put (mailboxName dest) (target.receive policy (box.listed uids)))
  | .uidExpunge uids => st.change fun box => box.expunge fun m => m.uid ∈ uids
  | .expunge => st.change fun box => box.expunge fun _ => true
  -- no part of a move or a delete
  | .select _ true | .list _ | .uidSearch _ | .uidFetch _ _ | .append _ _ _ _ | .create _
  | .rename _ _ | .delete _ => none

/-- How a command goes. -/
inductive Answer where
  | completes (reply : Reply) (items : List Item)
  | fails (error : AsyncImapError) (applied : Bool)   -- the command may have been done

structure Outcome (γ α : Type) where
  store : Store γ
  issued : List Command
  result : Option (Except ImapError α)      -- none for a future that is dropped

def Outcome.after {α : Type} (o : Outcome γ α) (cmd : Command) : Outcome γ α :=
  { o with issued := cmd :: o.issued }

/-- The first item that ends a stream early. -/
def refusal (check : List Item → Item → Option ImapError) :
    List Item → List Item → Option ImapError
  | _, [] => none
  | before, item :: rest =>
      match check before item with
      | some e => some e
      | none => refusal check (before ++ [item]) rest

def exec {α : Type} (policy : UidPolicy) : Prog α → Store γ → List Answer → Outcome γ α
  | .done result, st, _ => ⟨st, [], some result⟩
  | .command _ _ _, st, [] => ⟨st, [], none⟩
  | .command cmd onError _, st, .fails e applied :: _ =>
      ⟨if applied then (serve policy st cmd).getD st else st, [cmd], some (.error (onError e))⟩
  | .command cmd onError next, st, .completes reply _ :: rest =>
      match serve policy st cmd with
      | none => ⟨st, [cmd], some (.error (onError (.no "")))⟩
      | some st' => (exec policy (next reply) st' rest).after cmd
  | .stream _ _ _, st, [] => ⟨st, [], none⟩
  | .stream cmd _ _, st, .fails e applied :: _ =>
      ⟨if applied then (serve policy st cmd).getD st else st, [cmd], some (.error (mapErr e))⟩
  | .stream cmd check next, st, .completes _ items :: rest =>
      match serve policy st cmd with
      | none => ⟨st, [cmd], some (.error (mapErr (.no "")))⟩
      | some st' =>
          match refusal check [] items with
          | some e => ⟨st', [cmd], some (.error e)⟩
          | none => (exec policy (next items) st' rest).after cmd

/-! ## The two operations -/

inductive Operation where
  | move (src dest : String) (uids : List Uid) (uidvalidity : Option Nat)
  | delete (src : String) (uid : Uid) (trash : String) (uidvalidity : Option Nat)

namespace Operation

def source : Operation → String
  | move src _ _ _ | delete src _ _ _ => mailboxName src

def destination : Operation → String
  | move _ dest _ _ => mailboxName dest
  | delete _ _ trash _ => mailboxName trash

def targets : Operation → List Uid
  | move _ _ uids _ => uids
  | delete _ uid _ _ => [uid]

/-- A message has to leave its mailbox. -/
def needsMove : Operation → Bool
  | move _ _ _ _ => true
  | delete src _ trash _ => !eqIgnoreAsciiCase src trash

/-- The body, with `folder_wide_expunge` of its result. -/
def body (caps : ServerCapabilities) : Operation → Prog Bool
  | move src dest uids uidvalidity => do
      let outcome ← moveBody caps src dest uids uidvalidity
      pure outcome.folderWideExpunge
  | delete src uid trash uidvalidity => do
      let (result, _) ← deleteBody caps src uid trash uidvalidity
      pure result.folderWideExpunge

end Operation

/-- A message that has to survive. -/
def spared (caps : ServerCapabilities) (uids : List Uid) (m : Message γ) : Bool :=
  decide (m.uid ∈ uids) || !m.deleted || decide (caps ≠ .known false false)

def contents (messages : List (Message γ)) : List γ := messages.map (·.content)

/-- The contents of the two mailboxes, of one mailbox when they are the same. -/
def held (src dest : String) (atSource atDest : List (Message γ)) : List γ :=
  if src = dest then contents atSource else contents atSource ++ contents atDest

/-- Every message that has to survive, and what the destination held before, is still
    in the source or the destination. -/
def NoMailLost (caps : ServerCapabilities) (op : Operation) (before after : Store γ) : Prop :=
  (held op.source op.destination
      ((before.messages op.source).filter (spared caps op.targets))
      (before.messages op.destination)).Subperm
    (held op.source op.destination (after.messages op.source) (after.messages op.destination))

/-- What is promised of a run. -/
structure Keeps (caps : ServerCapabilities) (op : Operation) (before : Store γ)
    (o : Outcome γ Bool) : Prop where
  noMailLost : NoMailLost caps op before o.store
  flag : ∀ folderWide, o.result = some (.ok folderWide) →
    (folderWide = true ↔ Command.expunge ∈ o.issued)
  refused : caps = .unknown → op.needsMove = true → o.store.mailboxes = before.mailboxes

/-- A move in place on a server without MOVE, where a copy gets a UID of the batch or,
    without UIDPLUS, is flagged already. -/
def Operation.losesMail (policy : UidPolicy) (caps : ServerCapabilities) (st : Store γ) :
    Operation → Prop
  | .move src dest uids _ =>
      mailboxName src = mailboxName dest ∧
        controlByteAt 0 src.toList = none ∧ controlByteAt 0 dest.toList = none ∧
        uids.length ≤ MAX_BATCH ∧
        ∃ box hasUidplus, st.mailboxes (mailboxName src) = some box ∧
          caps = .known false hasUidplus ∧
          ∃ m ∈ copies policy box.uidNext (box.listed uids),
            m.uid ∈ uids ∨ hasUidplus = false ∧ m.deleted = true
  | .delete _ _ _ _ => False

/-! ## Rules for programs -/

section

variable {α β : Type} (policy : UidPolicy)

/-- Wherever a run of `p` stops, `P` holds of the store; and when it returns a value,
    `Q` holds of it, of the store and of the commands sent. -/
def Runs (p : Prog α) (st : Store γ) (P : Store γ → Prop)
    (Q : α → Store γ → List Command → Prop) : Prop :=
  ∀ answers, P (exec policy p st answers).store ∧
    ∀ a, (exec policy p st answers).result = some (.ok a) →
      Q a (exec policy p st answers).store (exec policy p st answers).issued

variable {policy}
variable {p : Prog α} {f : α → Prog β} {st : Store γ} {P : Store γ → Prop}

theorem runs_pure {Q : α → Store γ → List Command → Prop} {a : α} (hP : P st) (hQ : Q a st []) :
    Runs policy (pure a) st P Q := by
  intro answers
  refine ⟨hP, ?_⟩
  rintro _ ⟨rfl⟩
  exact hQ

theorem runs_throw {Q : α → Store γ → List Command → Prop} {e : ImapError} (hP : P st) :
    Runs policy (Prog.throw e) st P Q := by
  intro answers
  exact ⟨hP, nofun⟩

theorem runs_mono {Q R : α → Store γ → List Command → Prop} (h : Runs policy p st P Q)
    (hQR : ∀ a st' issued, P st' → Q a st' issued → R a st' issued) : Runs policy p st P R := by
  intro answers
  obtain ⟨hP, hQ⟩ := h answers
  exact ⟨hP, fun a ha => hQR _ _ _ hP (hQ a ha)⟩

/-- A command that fails leaves the store as it was or as the command makes it. -/
theorem store_of_fails (hP : P st) {cmd : Command}
    (hserve : ∀ st', serve policy st cmd = some st' → P st') (applied : Bool) :
    P (if applied then (serve policy st cmd).getD st else st) := by
  split
  · rcases hst : serve policy st cmd with _ | st'
    · exact hP
    · exact hserve st' hst
  · exact hP

theorem runs_command {cmd : Command} {onError : AsyncImapError → ImapError}
    {next : Reply → Prog α} {Q : α → Store γ → List Command → Prop} :
    Runs policy (.command cmd onError next) st P Q ↔
      P st ∧ ∀ st', serve policy st cmd = some st' →
        P st' ∧ ∀ reply,
          Runs policy (next reply) st' P fun a st'' issued => Q a st'' (cmd :: issued) := by
  constructor
  · intro h
    refine ⟨(h []).1, ?_⟩
    intro st' hst
    refine ⟨by simpa [exec, hst] using (h [.fails .parse true]).1, ?_⟩
    intro reply rest
    simpa [exec, hst, Outcome.after] using h (.completes reply [] :: rest)
  · rintro ⟨hP, hserve⟩ (_ | ⟨⟨reply, items⟩ | ⟨e, applied⟩, rest⟩)
    · exact ⟨hP, nofun⟩
    · rw [exec]
      split
      · exact ⟨hP, nofun⟩
      · rename_i st' hst
        exact (hserve st' hst).2 reply rest
    · exact ⟨store_of_fails hP (fun st' hst => (hserve st' hst).1) applied, nofun⟩

theorem runs_stream {cmd : Command} {check : List Item → Item → Option ImapError}
    {next : List Item → Prog α} {Q : α → Store γ → List Command → Prop} :
    Runs policy (.stream cmd check next) st P Q ↔
      P st ∧ ∀ st', serve policy st cmd = some st' →
        P st' ∧ ∀ items, refusal check [] items = none →
          Runs policy (next items) st' P fun a st'' issued => Q a st'' (cmd :: issued) := by
  constructor
  · intro h
    refine ⟨(h []).1, ?_⟩
    intro st' hst
    refine ⟨by simpa [exec, hst] using (h [.fails .parse true]).1, ?_⟩
    intro items hitems rest
    simpa [exec, hst, hitems, Outcome.after] using h (.completes {} items :: rest)
  · rintro ⟨hP, hserve⟩ (_ | ⟨⟨reply, items⟩ | ⟨e, applied⟩, rest⟩)
    · exact ⟨hP, nofun⟩
    · rw [exec]
      split
      · exact ⟨hP, nofun⟩
      · rename_i st' hst
        split
        · exact ⟨(hserve st' hst).1, nofun⟩
        · rename_i hitems
          exact (hserve st' hst).2 items hitems rest
    · exact ⟨store_of_fails hP (fun st' hst => (hserve st' hst).1) applied, nofun⟩

/-- A run may stop before its first command. -/
theorem Runs.start {Q : α → Store γ → List Command → Prop} (h : Runs policy p st P Q) : P st := by
  have hnone : (exec policy p st []).store = st := by
    rcases p with _ | _ | _ <;> rfl
  rw [← hnone]
  exact (h []).1

theorem runs_bind {Q : β → Store γ → List Command → Prop} :
    Runs policy (p >>= f) st P Q ↔ Runs policy p st P fun a st' issued =>
      Runs policy (f a) st' P fun b st'' issued' => Q b st'' (issued ++ issued') := by
  change Runs policy (p.bind f) st P Q ↔ _
  induction p generalizing st Q with
  | done result =>
      rcases result with e | a
      · exact ⟨fun h => runs_throw h.start, fun h => runs_throw h.start⟩
      · exact ⟨fun h => runs_pure h.start h, fun h => (h []).2 a rfl⟩
  | command cmd onError next ih =>
      rw [runs_command, Prog.bind, runs_command]
      simp only [ih, List.cons_append]
  | stream cmd check next ih =>
      rw [runs_stream, Prog.bind, runs_stream]
      simp only [ih, List.cons_append]

theorem runs_send {cmd : Command} {onError : AsyncImapError → ImapError}
    {Q : Reply → Store γ → List Command → Prop} (hP : P st)
    (h : ∀ st', serve policy st cmd = some st' → P st' ∧ ∀ reply, Q reply st' [cmd]) :
    Runs policy (send cmd onError) st P Q := by
  refine runs_command.mpr ⟨hP, ?_⟩
  intro st' hst
  exact ⟨(h st' hst).1, fun reply => runs_pure (h st' hst).1 ((h st' hst).2 reply)⟩

theorem runs_collect {cmd : Command} {Q : List Item → Store γ → List Command → Prop} (hP : P st)
    (h : ∀ st', serve policy st cmd = some st' → P st' ∧ ∀ items, Q items st' [cmd]) :
    Runs policy (collect cmd) st P Q := by
  refine runs_stream.mpr ⟨hP, ?_⟩
  intro st' hst
  exact ⟨(h st' hst).1, fun items _ => runs_pure (h st' hst).1 ((h st' hst).2 items)⟩

/-! The rules read backwards: what holds of all runs holds after a command that the
server completes. -/

theorem Runs.of_pure {Q : α → Store γ → List Command → Prop} {a : α}
    (h : Runs policy (pure a) st P Q) : Q a st [] :=
  (h []).2 a rfl

theorem Runs.of_send {cmd : Command} {onError : AsyncImapError → ImapError}
    {Q : Reply → Store γ → List Command → Prop} (h : Runs policy (send cmd onError) st P Q)
    {st' : Store γ} (hserve : serve policy st cmd = some st') (reply : Reply) :
    Q reply st' [cmd] :=
  (((runs_command.mp h).2 st' hserve).2 reply).of_pure

theorem Runs.of_collect {cmd : Command} {Q : List Item → Store γ → List Command → Prop}
    (h : Runs policy (collect cmd) st P Q) {st' : Store γ}
    (hserve : serve policy st cmd = some st') : Q [] st' [cmd] :=
  (((runs_stream.mp h).2 st' hserve).2 [] rfl).of_pure

/-! A check sends nothing: it stops the run or lets it go on. -/

theorem runs_check {q : Prog Unit} {Q : Unit → Store γ → List Command → Prop}
    (hq : q = pure () ∨ ∃ e, q = Prog.throw e) (hP : P st) (hQ : Q () st []) :
    Runs policy q st P Q := by
  rcases hq with rfl | ⟨e, rfl⟩
  · exact runs_pure hP hQ
  · exact runs_throw hP

theorem validateServerFolderName_cases (name : String) :
    validateServerFolderName name = pure () ∨
      ∃ e, validateServerFolderName name = Prog.throw e := by
  unfold validateServerFolderName
  split
  · exact .inl rfl
  · exact .inr ⟨_, rfl⟩

theorem validateFolderName_cases (name : String) :
    validateFolderName name = pure () ∨ ∃ e, validateFolderName name = Prog.throw e := by
  unfold validateFolderName
  split
  · exact .inl rfl
  · exact .inr ⟨_, rfl⟩

theorem checkUidvalidity_cases (folder : String) (expected observed : Option Nat) :
    checkUidvalidity folder expected observed = pure () ∨
      ∃ e, checkUidvalidity folder expected observed = Prog.throw e := by
  unfold checkUidvalidity
  split
  · split
    · exact .inr ⟨_, rfl⟩
    · exact .inl rfl
  · exact .inl rfl

theorem runs_status {folder : String} {Q : Reply → Store γ → List Command → Prop} (hP : P st)
    (hQ : ∀ reply, Q reply st [.status folder]) : Runs policy (status folder) st P Q := by
  apply runs_bind.mpr
  apply runs_check (validateServerFolderName_cases folder) hP
  apply runs_send hP
  intro st' hst
  obtain rfl : st = st' := by
    simp only [serve, Option.bind_eq_bind, Option.bind_eq_some_iff, Option.some.injEq] at hst
    exact hst.choose_spec.2
  exact ⟨hP, hQ⟩

theorem validateServerFolderName_of_none {name : String}
    (h : controlByteAt 0 name.toList = none) : validateServerFolderName name = pure () := by
  simp [validateServerFolderName, h]

theorem runs_select {folder : String} {Q : Reply → Store γ → List Command → Prop} (hP : P st)
    (h : ∀ box, controlByteAt 0 folder.toList = none →
      st.mailboxes (mailboxName folder) = some box →
      P { st with selected := some (mailboxName folder) } ∧
        ∀ reply, Q reply { st with selected := some (mailboxName folder) } [.select folder false]) :
    Runs policy (select folder false) st P Q := by
  apply runs_bind.mpr
  rcases hname : controlByteAt 0 folder.toList with _ | ⟨b, i⟩
  · rw [validateServerFolderName_of_none hname]
    apply runs_pure hP
    apply runs_send hP
    intro st' hst
    simp only [serve, Option.bind_eq_bind, Option.bind_eq_some_iff, Option.some.injEq] at hst
    obtain ⟨box, hbox, rfl⟩ := hst
    exact h box hname hbox
  · rw [validateServerFolderName, hname]
    exact runs_throw hP

theorem runs_store {uids : List Uid} (hne : uids ≠ [])
    {Q : List Uid → Store γ → List Command → Prop} (hP : P st)
    (h : ∀ st', serve policy st (.uidStore uids [.deleted] .add) = some st' →
      P st' ∧ ∀ updated, Q updated st' [.uidStore uids [.deleted] .add]) :
    Runs policy (store uids [.deleted] .add) st P Q := by
  unfold ImapOps.store
  split
  · exact runs_throw hP
  · rw [if_neg (by simpa using hne)]
    apply runs_bind.mpr
    apply runs_pure hP
    apply runs_bind.mpr
    apply runs_collect hP
    intro st' hst
    obtain ⟨hP', hQ⟩ := h st' hst
    exact ⟨hP', fun items => runs_pure hP' (hQ _)⟩

/-- The command of a strategy. -/
def expungeCommand (uids : List Uid) (hasUidplus : Bool) : Command :=
  if hasUidplus then .uidExpunge uids else .expunge

theorem runs_runExpunge {uids : List Uid} {hasUidplus : Bool}
    {Q : Unit → Store γ → List Command → Prop} (hP : P st)
    (h : ∀ st', serve policy st (expungeCommand uids hasUidplus) = some st' →
      P st' ∧ Q () st' [expungeCommand uids hasUidplus]) :
    Runs policy (runExpunge uids (expungeStrategy hasUidplus)) st P Q := by
  rcases hasUidplus with _ | _ <;>
  · apply runs_bind.mpr
    apply runs_collect hP
    intro st' hst
    exact ⟨(h st' hst).1, fun items => runs_pure (h st' hst).1 (h st' hst).2⟩

end

/-! ## What the commands do to the contents -/

namespace Store

@[simp] theorem messages_put_self (st : Store γ) (name : String) (box : Mailbox γ) :
    (st.put name box).messages name = box.messages := by
  simp [messages, put]

theorem messages_put_of_ne (st : Store γ) {name other : String} (h : other ≠ name)
    (box : Mailbox γ) : (st.put name box).messages other = st.messages other := by
  simp [messages, put, h]

@[simp] theorem mailboxes_put_self (st : Store γ) (name : String) (box : Mailbox γ) :
    (st.put name box).mailboxes name = some box := by
  simp [put]

theorem mailboxes_put_of_ne (st : Store γ) {name other : String} (h : other ≠ name)
    (box : Mailbox γ) : (st.put name box).mailboxes other = st.mailboxes other := by
  simp [put, h]

@[simp] theorem selected_put (st : Store γ) (name : String) (box : Mailbox γ) :
    (st.put name box).selected = st.selected := rfl

theorem messages_of_mailboxes {st : Store γ} {name : String} {box : Mailbox γ}
    (h : st.mailboxes name = some box) : st.messages name = box.messages := by
  simp [messages, h]

end Store

theorem contents_copies (policy : UidPolicy) (uidNext : Uid) (l : List (Message γ)) :
    contents (copies policy uidNext l) = contents l := by
  induction l generalizing uidNext with
  | nil => rfl
  | cons m rest ih => exact congrArg (m.content :: ·) (ih _)

section

variable (uids : List Uid) (flags : List Flag) (action : FlagAction)

@[simp] theorem Message.store_uid (m : Message γ) : (m.store uids flags action).uid = m.uid := by
  unfold store
  split <;> rfl

@[simp] theorem Message.store_content (m : Message γ) :
    (m.store uids flags action).content = m.content := by
  unfold store
  split <;> rfl

/-- The flag is on after `+FLAGS (\Deleted)` when it was on or the message is listed. -/
theorem Message.store_deleted (m : Message γ) :
    (m.store uids [.deleted] .add).deleted = (decide (m.uid ∈ uids) || m.deleted) := by
  by_cases hlisted : m.uid ∈ uids
  · by_cases hflag : Flag.deleted ∈ m.flags
    · simp [store, deleted, FlagAction.apply, hlisted, hflag]
    · simp [store, deleted, FlagAction.apply, hlisted, hflag]
  · simp [store, hlisted]

theorem contents_store (l : List (Message γ)) :
    contents (l.map (Message.store uids flags action)) = contents l := by
  simp [contents, Function.comp_def]

/-- A choice by UID is not changed by flags. -/
theorem contents_filter_store (p : Uid → Bool) (l : List (Message γ)) :
    contents ((l.map (Message.store uids flags action)).filter fun m => p m.uid) =
      contents (l.filter fun m => p m.uid) := by
  rw [List.filter_map, contents_store]
  simp [Function.comp_def]

end

/-- A message that the STORE and the EXPUNGE leave where it is. -/
def remains (hasUidplus : Bool) (uids : List Uid) (m : Message γ) : Bool :=
  decide (m.uid ∉ uids) && (hasUidplus || !m.deleted)

def expungeScope (hasUidplus : Bool) (uids : List Uid) (m : Message γ) : Bool :=
  hasUidplus == false || decide (m.uid ∈ uids)

theorem contents_purged (hasUidplus : Bool) (uids : List Uid) (l : List (Message γ)) :
    contents ((l.map (Message.store uids [.deleted] .add)).filter fun m =>
        !(m.deleted && expungeScope hasUidplus uids m)) =
      contents (l.filter (remains hasUidplus uids)) := by
  rw [List.filter_map, contents_store]
  congr 2
  funext m
  rcases hasUidplus with _ | _ <;> by_cases hlisted : m.uid ∈ uids <;>
    simp [Message.store_deleted, expungeScope, remains, hlisted]

/-- The messages to be kept are those that remain and those that are listed. -/
theorem contents_spared (hasUidplus : Bool) (uids : List Uid) (l : List (Message γ)) :
    (contents (l.filter (spared (.known false hasUidplus) uids))).Perm
      (contents (l.filter (remains hasUidplus uids)) ++
        contents (l.filter fun m => m.uid ∈ uids)) := by
  rw [contents, contents, contents, ← List.map_append]
  apply List.Perm.map
  have hsplit := List.filter_append_perm (fun m => decide (m.uid ∉ uids))
    (l.filter (spared (.known false hasUidplus) uids))
  apply hsplit.symm.trans
  rw [List.filter_filter, List.filter_filter]
  apply List.Perm.append
  · apply List.Perm.of_eq
    congr 1
    funext m
    rcases hasUidplus with _ | _ <;> by_cases hlisted : m.uid ∈ uids <;>
      simp [spared, remains, hlisted]
  · apply List.Perm.of_eq
    congr 1
    funext m
    by_cases hlisted : m.uid ∈ uids <;> simp [spared, hlisted]

/-! ## The operations, command by command -/

section

variable {policy : UidPolicy} {st : Store γ} {P : Store γ → Prop}

theorem runs_copyDeleteFallback {dest : String} {uids : List Uid} {hasUidplus : Bool}
    (hne : uids ≠ []) (hP : P st)
    (h : ∀ st₁, serve policy st (.uidCopy uids dest) = some st₁ → P st₁ ∧
      ∀ st₂, serve policy st₁ (.uidStore uids [.deleted] .add) = some st₂ → P st₂ ∧
        ∀ st₃, serve policy st₂ (expungeCommand uids hasUidplus) = some st₃ → P st₃) :
    Runs policy (copyDeleteFallback dest uids hasUidplus) st P fun _ _ issued =>
      hasUidplus = false ↔ Command.expunge ∈ issued := by
  apply runs_bind.mpr
  apply runs_check (validateServerFolderName_cases dest) hP
  apply runs_bind.mpr
  apply runs_send hP
  intro st₁ h₁
  obtain ⟨hP₁, hstore⟩ := h st₁ h₁
  refine ⟨hP₁, fun _ => ?_⟩
  apply runs_bind.mpr
  apply runs_status hP₁
  intro destStatus
  apply runs_bind.mpr
  apply runs_store hne hP₁
  intro st₂ h₂
  obtain ⟨hP₂, hexpunge⟩ := hstore st₂ h₂
  refine ⟨hP₂, fun _ => ?_⟩
  apply runs_bind.mpr
  apply runs_runExpunge hP₂
  intro st₃ h₃
  refine ⟨hexpunge st₃ h₃, ?_⟩
  apply runs_pure (hexpunge st₃ h₃)
  rcases hasUidplus with _ | _ <;> simp [expungeCommand]

theorem runs_guardSource {src : String} {expected : Option Nat} (hP : P st) :
    Runs policy (guardSource src expected) st P fun _ st' issued =>
      st' = st ∧ Command.expunge ∉ issued := by
  rcases expected with _ | expected
  · exact runs_pure hP ⟨rfl, nofun⟩
  · apply runs_bind.mpr
    apply runs_status hP
    intro status
    split
    · split
      · exact runs_throw hP
      · exact runs_pure hP ⟨rfl, by simp⟩
    · exact runs_pure hP ⟨rfl, by simp⟩

theorem runs_moveMessages {caps : ServerCapabilities} {src dest : String} {uids : List Uid}
    {uidvalidity : Option Nat} (hP : P st)
    (hmove : caps ≠ .unknown → ∀ st', serve policy st (.uidMove uids dest) = some st' → P st')
    (hfallback : ∀ hasUidplus, caps = .known false hasUidplus →
      controlByteAt 0 dest.toList = none → uids.length ≤ MAX_BATCH →
      ∀ st₁, serve policy st (.uidCopy uids dest) = some st₁ → P st₁ ∧
        ∀ st₂, serve policy st₁ (.uidStore uids [.deleted] .add) = some st₂ → P st₂ ∧
          ∀ st₃, serve policy st₂ (expungeCommand uids hasUidplus) = some st₃ → P st₃) :
    Runs policy (moveMessages caps src dest uids uidvalidity) st P fun outcome _ issued =>
      outcome.folderWideExpunge = true ↔ Command.expunge ∈ issued := by
  unfold moveMessages
  rcases hname : controlByteAt 0 dest.toList with _ | ⟨b, i⟩
  · rw [validateServerFolderName_of_none hname]
    apply runs_bind.mpr
    apply runs_pure hP
    split
    · exact runs_throw hP
    · rename_i hlength
      split
      · exact runs_pure hP (by simp)
      · rename_i hne
        rcases caps with ⟨hasMove, hasUidplus⟩ | _
        · apply runs_bind.mpr
          apply runs_pure hP
          apply runs_bind.mpr
          apply runs_mono (runs_guardSource hP)
          rintro sourceUidValidity _ issued - ⟨rfl, hguard⟩
          rcases hasMove with _ | _
          · apply runs_bind.mpr
            apply runs_mono (runs_copyDeleteFallback (by simpa using hne) hP
              (hfallback hasUidplus rfl hname (by omega)))
            rintro ⟨results, destinationUidValidity⟩ st' fallback hP' hflag
            apply runs_pure hP'
            simpa [hguard, fallbackUsesFolderWideExpunge] using hflag
          · apply runs_bind.mpr
            apply runs_send hP
            intro st' hst
            refine ⟨hmove nofun st' hst, fun _ => ?_⟩
            apply runs_pure (hmove nofun st' hst)
            simp [hguard]
        · exact runs_throw hP
  · apply runs_bind.mpr
    rw [validateServerFolderName, hname]
    exact runs_throw hP

theorem runs_moveToTrash {uid : Uid} {trash : String} {hasMove hasUidplus : Bool} (hP : P st)
    (hmove : hasMove = true → ∀ st', serve policy st (.uidMove [uid] trash) = some st' → P st')
    (hfallback : hasMove = false → ∀ st₁, serve policy st (.uidCopy [uid] trash) = some st₁ →
      P st₁ ∧ ∀ st₂, serve policy st₁ (expungeCommand [uid] hasUidplus) = some st₂ → P st₂) :
    Runs policy (moveToTrash uid trash hasMove hasUidplus) st P fun _ _ issued =>
      fallbackUsesFolderWideExpunge hasMove hasUidplus = true ↔ Command.expunge ∈ issued := by
  rcases hasMove with _ | _
  · apply runs_bind.mpr
    apply runs_send hP
    intro st₁ h₁
    obtain ⟨hP₁, hexpunge⟩ := hfallback rfl st₁ h₁
    refine ⟨hP₁, fun _ => ?_⟩
    apply runs_runExpunge hP₁
    intro st₂ h₂
    refine ⟨hexpunge st₂ h₂, ?_⟩
    rcases hasUidplus with _ | _ <;> simp [expungeCommand, fallbackUsesFolderWideExpunge]
  · apply runs_bind.mpr
    apply runs_send hP
    intro st' hst
    refine ⟨hmove rfl st' hst, fun _ => ?_⟩
    apply runs_pure (hmove rfl st' hst)
    simp [fallbackUsesFolderWideExpunge]

theorem runs_deleteMessage {caps : ServerCapabilities} {uid : Uid} {source trash : String}
    (hP : P st)
    (hstore : caps ≠ .unknown ∨ eqIgnoreAsciiCase source trash = true →
      ∀ st₁, serve policy st (.uidStore [uid] [.deleted] .add) = some st₁ → P st₁)
    (hmove : eqIgnoreAsciiCase source trash = false →
      ∀ st₁, serve policy st (.uidStore [uid] [.deleted] .add) = some st₁ →
        (∀ st₂, serve policy st₁ (.uidMove [uid] trash) = some st₂ → caps ≠ .unknown → P st₂) ∧
        ∀ hasUidplus, caps = .known false hasUidplus →
          ∀ st₂, serve policy st₁ (.uidCopy [uid] trash) = some st₂ → P st₂ ∧
            ∀ st₃, serve policy st₂ (expungeCommand [uid] hasUidplus) = some st₃ → P st₃) :
    Runs policy (deleteMessage caps uid source trash) st P fun result _ issued =>
      result.folderWideExpunge = true ↔ Command.expunge ∈ issued := by
  apply runs_bind.mpr
  apply runs_check (validateFolderName_cases source) hP
  apply runs_bind.mpr
  apply runs_check (validateFolderName_cases trash) hP
  split
  · rename_i hsame
    apply runs_bind.mpr
    apply runs_store (by simp) hP
    intro st₁ h₁
    refine ⟨hstore (.inr hsame) st₁ h₁, fun _ => ?_⟩
    apply runs_pure (hstore (.inr hsame) st₁ h₁)
    simp
  · rename_i hother
    rcases caps with ⟨hasMove, hasUidplus⟩ | _
    · apply runs_bind.mpr
      apply runs_pure hP
      apply runs_bind.mpr
      apply runs_store (by simp) hP
      intro st₁ h₁
      have hP₁ := hstore (.inl nofun) st₁ h₁
      obtain ⟨hmoved, hcopied⟩ := hmove (by simpa using hother) st₁ h₁
      refine ⟨hP₁, fun _ => ?_⟩
      apply runs_bind.mpr
      apply runs_mono (runs_moveToTrash hP₁ (fun _ st₂ h₂ => hmoved st₂ h₂ nofun)
        (by rintro rfl; exact hcopied hasUidplus rfl))
      intro _ st₂ issued hP₂ hflag
      apply runs_pure hP₂
      simpa using hflag
    · exact runs_throw hP

end

/-! ## What is in the two mailboxes afterwards -/

/-- The mailbox that is selected. -/
structure Store.At (st : Store γ) (name : String) (box : Mailbox γ) : Prop where
  selected : st.selected = some name
  mailbox : st.mailboxes name = some box

theorem Store.At.messages {st : Store γ} {name : String} {box : Mailbox γ} (h : st.At name box) :
    st.messages name = box.messages :=
  Store.messages_of_mailboxes h.mailbox

section

variable {policy : UidPolicy} {st st' : Store γ} {src dest : String} {box : Mailbox γ}
variable {uids : List Uid}

theorem Store.At.put (h : st.At src box) (box' : Mailbox γ) : (st.put src box').At src box' :=
  ⟨h.selected, by simp⟩

theorem Store.At.put_of_ne (h : st.At src box) (hne : src ≠ dest) (box' : Mailbox γ) :
    (st.put dest box').At src box :=
  ⟨h.selected, by rw [mailboxes_put_of_ne st hne, h.mailbox]⟩

theorem serve_uidStore (h : st.At src box) (flags : List Flag) (action : FlagAction) :
    serve policy st (.uidStore uids flags action) =
      some (st.put src (box.store uids flags action)) := by
  simp [serve, Store.change, h.selected, h.mailbox]

theorem serve_expungeCommand (h : st.At src box) (hasUidplus : Bool) :
    serve policy st (expungeCommand uids hasUidplus) =
      some (st.put src (box.expunge (expungeScope hasUidplus uids))) := by
  rcases hasUidplus with _ | _
  · simp [expungeCommand, serve, Store.change, h.selected, h.mailbox, expungeScope,
      Mailbox.expunge]
  · simp [expungeCommand, serve, Store.change, h.selected, h.mailbox, expungeScope,
      Mailbox.expunge]

theorem serve_uidCopy (h : st.At src box)
    (hserve : serve policy st (.uidCopy uids dest) = some st') :
    ∃ target, st.mailboxes (mailboxName dest) = some target ∧
      st' = st.put (mailboxName dest) (target.receive policy (box.listed uids)) := by
  simp only [serve, h.selected, h.mailbox, Option.bind_eq_bind, Option.bind_some,
    Option.bind_eq_some_iff, Option.some.injEq] at hserve
  obtain ⟨target, htarget, rfl⟩ := hserve
  exact ⟨target, htarget, rfl⟩

theorem serve_uidMove (h : st.At src box)
    (hserve : serve policy st (.uidMove uids dest) = some st') :
    ∃ target, (st.put src { box with messages := box.unlisted uids }).mailboxes
        (mailboxName dest) = some target ∧
      st' = (st.put src { box with messages := box.unlisted uids }).put (mailboxName dest)
        (target.receive policy (box.listed uids)) := by
  simp only [serve, h.selected, h.mailbox, Option.bind_eq_bind, Option.bind_some,
    Option.bind_eq_some_iff, Option.some.injEq] at hserve
  obtain ⟨target, htarget, rfl⟩ := hserve
  exact ⟨target, htarget, rfl⟩

theorem contents_receive (box : Mailbox γ) (incoming : List (Message γ)) :
    contents (box.receive policy incoming).messages =
      contents box.messages ++ contents incoming := by
  rw [← contents_copies policy box.uidNext incoming]
  exact List.map_append

/-- Listed and unlisted messages make up a mailbox. -/
theorem contents_split (uids : List Uid) (l : List (Message γ)) :
    (contents l).Perm
      (contents (l.filter fun m => m.uid ∉ uids) ++ contents (l.filter fun m => m.uid ∈ uids)) := by
  have hsplit := (List.filter_append_perm (fun m : Message γ => decide (m.uid ∉ uids)) l).symm
  simpa [contents] using hsplit.map (·.content)

end

section

variable {caps : ServerCapabilities} {op : Operation} {before after : Store γ}

theorem contents_filter_subperm (p : Message γ → Bool) (l : List (Message γ)) :
    (contents (l.filter p)).Subperm (contents l) :=
  (List.filter_sublist.map _).subperm

theorem noMailLost_apart (hne : op.source ≠ op.destination) {arrived : List γ}
    (hsource : (contents ((before.messages op.source).filter (spared caps op.targets))).Subperm
      (contents (after.messages op.source) ++ arrived))
    (hdest : contents (after.messages op.destination) =
      contents (before.messages op.destination) ++ arrived) :
    NoMailLost caps op before after := by
  rw [NoMailLost, held, held, if_neg hne, if_neg hne, hdest]
  have happend := hsource.append (List.Subperm.refl (contents (before.messages op.destination)))
  apply happend.trans
  rw [List.append_assoc]
  exact (List.Perm.append_left _ List.perm_append_comm).subperm

theorem noMailLost_inPlace (heq : op.source = op.destination) :
    NoMailLost caps op before after ↔
      (contents ((before.messages op.source).filter (spared caps op.targets))).Subperm
        (contents (after.messages op.source)) := by
  rw [NoMailLost, held, held, if_pos heq, if_pos heq]

/-- Where messages only come in, none is lost. -/
theorem noMailLost_of_grown
    (hsource : (contents (before.messages op.source)).Subperm (contents (after.messages op.source)))
    (hdest : op.source ≠ op.destination → ∃ arrived, contents (after.messages op.destination) =
      contents (before.messages op.destination) ++ arrived) :
    NoMailLost caps op before after := by
  have hspared := (contents_filter_subperm (spared caps op.targets) _).trans hsource
  by_cases heq : op.source = op.destination
  · exact (noMailLost_inPlace heq).mpr hspared
  · obtain ⟨arrived, harrived⟩ := hdest heq
    apply noMailLost_apart heq _ harrived
    exact hspared.trans (List.sublist_append_left _ _).subperm

theorem noMailLost_of_mailboxes (h : after.mailboxes = before.mailboxes) :
    NoMailLost caps op before after := by
  have hmessages : after.messages = before.messages := by
    funext name
    simp [Store.messages, h]
  apply noMailLost_of_grown
  · rw [hmessages]
  · intro _
    exact ⟨[], by rw [hmessages, List.append_nil]⟩

section

variable {policy : UidPolicy} {st st' : Store γ} {box : Mailbox γ} {dest : String}
variable {hasUidplus : Bool}

theorem apart_uidCopy (hne : op.source ≠ op.destination) (hdest : mailboxName dest = op.destination)
    (hat : st.At op.source box)
    (hserve : serve policy st (.uidCopy op.targets dest) = some st') :
    st'.At op.source box ∧ contents (st'.messages op.destination) =
      contents (st.messages op.destination) ++ contents (box.listed op.targets) := by
  obtain ⟨target, htarget, rfl⟩ := serve_uidCopy hat hserve
  rw [hdest] at htarget ⊢
  refine ⟨hat.put_of_ne hne _, ?_⟩
  rw [Store.messages_put_self, contents_receive, Store.messages_of_mailboxes htarget]

theorem inPlace_uidCopy (heq : op.source = op.destination)
    (hdest : mailboxName dest = op.destination) (hat : st.At op.source box)
    (hserve : serve policy st (.uidCopy op.targets dest) = some st') :
    st'.At op.source (box.receive policy (box.listed op.targets)) := by
  obtain ⟨target, htarget, rfl⟩ := serve_uidCopy hat hserve
  rw [hdest, ← heq] at htarget ⊢
  obtain rfl : box = target := Option.some.inj (hat.mailbox.symm.trans htarget)
  exact hat.put _

/-- After UID MOVE, from a source with the contents it had before. -/
theorem noMailLost_uidMove (hdest : mailboxName dest = op.destination)
    (hat : st.At op.source box)
    (hsource : contents box.messages = contents (before.messages op.source))
    (hrest : op.source ≠ op.destination →
      contents (st.messages op.destination) = contents (before.messages op.destination))
    (hserve : serve policy st (.uidMove op.targets dest) = some st') :
    NoMailLost caps op before st' := by
  have hspared := contents_filter_subperm (spared caps op.targets) (before.messages op.source)
  rw [← hsource] at hspared
  replace hspared := hspared.trans (contents_split op.targets box.messages).subperm
  obtain ⟨target, htarget, rfl⟩ := serve_uidMove hat hserve
  rw [hdest] at htarget ⊢
  by_cases heq : op.source = op.destination
  · apply (noMailLost_inPlace heq).mpr
    rw [← heq, Store.mailboxes_put_self] at htarget
    obtain rfl := Option.some.inj htarget
    rw [← heq, Store.messages_put_self, contents_receive]
    exact hspared
  · rw [Store.mailboxes_put_of_ne _ (Ne.symm heq)] at htarget
    apply noMailLost_apart heq
    · rw [Store.messages_put_of_ne _ heq, Store.messages_put_self]
      exact hspared
    · rw [Store.messages_put_self, contents_receive, ← hrest heq,
        Store.messages_of_mailboxes htarget]
      rfl

theorem contents_expunge_store (uids : List Uid) (hasUidplus : Bool) (box : Mailbox γ) :
    contents ((box.store uids [.deleted] .add).expunge (expungeScope hasUidplus uids)).messages =
      contents (box.messages.filter (remains hasUidplus uids)) :=
  contents_purged hasUidplus uids box.messages

/-- After the EXPUNGE of the fallback, into another mailbox. -/
theorem noMailLost_purged_apart (hne : op.source ≠ op.destination)
    (hat : st.At op.source (box.store op.targets [.deleted] .add))
    (hsource : before.messages op.source = box.messages)
    (hrest : contents (st.messages op.destination) =
      contents (before.messages op.destination) ++ contents (box.listed op.targets))
    (hserve : serve policy st (expungeCommand op.targets hasUidplus) = some st') :
    NoMailLost (.known false hasUidplus) op before st' := by
  rw [serve_expungeCommand hat] at hserve
  cases hserve
  apply noMailLost_apart hne
  · rw [Store.messages_put_self, contents_expunge_store, hsource]
    exact (contents_spared hasUidplus op.targets box.messages).subperm
  · rw [Store.messages_put_of_ne _ (Ne.symm hne)]
    exact hrest

/-- What the fallback leaves of a mailbox whose messages it moves in place. -/
theorem contents_inPlace (uids : List Uid) (box : Mailbox γ) :
    contents ((box.receive policy (box.listed uids)).messages.filter (remains hasUidplus uids)) =
      contents (box.messages.filter (remains hasUidplus uids)) ++
        contents ((copies policy box.uidNext (box.listed uids)).filter
          (remains hasUidplus uids)) := by
  rw [Mailbox.receive, List.filter_append]
  exact List.map_append

/-- After the EXPUNGE of the fallback, in place, when it spares the copies. -/
theorem noMailLost_purged_inPlace (heq : op.source = op.destination)
    (hat : st.At op.source
      ((box.receive policy (box.listed op.targets)).store op.targets [.deleted] .add))
    (hsource : before.messages op.source = box.messages)
    (hcopies : ∀ m ∈ copies policy box.uidNext (box.listed op.targets),
      remains hasUidplus op.targets m = true)
    (hserve : serve policy st (expungeCommand op.targets hasUidplus) = some st') :
    NoMailLost (.known false hasUidplus) op before st' := by
  rw [serve_expungeCommand hat] at hserve
  cases hserve
  apply (noMailLost_inPlace heq).mpr
  rw [Store.messages_put_self, contents_expunge_store, contents_inPlace,
    List.filter_eq_self.mpr hcopies, contents_copies, hsource]
  exact (contents_spared hasUidplus op.targets box.messages).subperm

/-- Flags are no contents. -/
theorem contents_uidStore {flags : List Flag} {action : FlagAction} {uids : List Uid}
    (hat : st.At op.source box) (hserve : serve policy st (.uidStore uids flags action) = some st')
    (name : String) : contents (st'.messages name) = contents (st.messages name) := by
  rw [serve_uidStore hat] at hserve
  cases hserve
  by_cases hname : name = op.source
  · rw [hname, Store.messages_put_self, hat.messages]
    exact contents_store _ _ _ _
  · rw [Store.messages_put_of_ne _ hname]

theorem noMailLost_uidStore (h : NoMailLost caps op before st) (hat : st.At op.source box)
    (hserve : serve policy st (.uidStore op.targets [.deleted] .add) = some st') :
    NoMailLost caps op before st' := by
  have hcontents := contents_uidStore hat hserve
  rw [NoMailLost, held, held, hcontents, hcontents]
  exact h

theorem noMailLost_uidCopy (hdest : mailboxName dest = op.destination)
    (hat : st.At op.source box)
    (hsource : contents box.messages = contents (before.messages op.source))
    (hrest : op.source ≠ op.destination →
      contents (st.messages op.destination) = contents (before.messages op.destination))
    (hserve : serve policy st (.uidCopy op.targets dest) = some st') :
    NoMailLost caps op before st' := by
  by_cases heq : op.source = op.destination
  · apply noMailLost_of_grown _ (fun hne => absurd heq hne)
    rw [(inPlace_uidCopy heq hdest hat hserve).messages, contents_receive, hsource]
    exact (List.sublist_append_left _ _).subperm
  · obtain ⟨hat', harrived⟩ := apart_uidCopy heq hdest hat hserve
    apply noMailLost_of_grown
    · rw [hat'.messages, hsource]
    · intro _
      exact ⟨_, harrived.trans (by rw [hrest heq])⟩

end

end

/-! ## Every run -/

section

variable {policy : UidPolicy} {caps : ServerCapabilities} {op : Operation} {before st : Store γ}

/-- What holds wherever a run stops. -/
def Kept (caps : ServerCapabilities) (op : Operation) (before after : Store γ) : Prop :=
  NoMailLost caps op before after ∧
    (caps = .unknown → op.needsMove = true → after.mailboxes = before.mailboxes)

theorem kept_of_mailboxes (h : st.mailboxes = before.mailboxes) : Kept caps op before st :=
  ⟨noMailLost_of_mailboxes h, fun _ _ => h⟩

theorem NoMailLost.kept (h : NoMailLost caps op before st)
    (hcaps : caps ≠ .unknown ∨ op.needsMove = false) : Kept caps op before st := by
  refine ⟨h, ?_⟩
  intro hunknown hneeds
  rcases hcaps with hknown | hstays
  · exact absurd hunknown hknown
  · rw [hstays] at hneeds
    cases hneeds

variable {box : Mailbox γ}

/-- The three writes of `copy_delete_fallback`. -/
theorem kept_fallback (op : Operation) {dest : String} {hasUidplus : Bool}
    (hdest : mailboxName dest = op.destination) (hat : st.At op.source box)
    (hst : st.mailboxes = before.mailboxes)
    (hcopies : op.source = op.destination →
      ∀ m ∈ copies policy box.uidNext (box.listed op.targets),
        remains hasUidplus op.targets m = true) :
    ∀ st₁, serve policy st (.uidCopy op.targets dest) = some st₁ →
      Kept (.known false hasUidplus) op before st₁ ∧
      ∀ st₂, serve policy st₁ (.uidStore op.targets [.deleted] .add) = some st₂ →
        Kept (.known false hasUidplus) op before st₂ ∧
        ∀ st₃, serve policy st₂ (expungeCommand op.targets hasUidplus) = some st₃ →
          Kept (.known false hasUidplus) op before st₃ := by
  have hmessages (name : String) : st.messages name = before.messages name := by
    simp [Store.messages, hst]
  have hsource : before.messages op.source = box.messages := by
    rw [← hmessages, hat.messages]
  intro st₁ h₁
  have hlost₁ : NoMailLost (.known false hasUidplus) op before st₁ :=
    noMailLost_uidCopy hdest hat (by rw [hsource]) (fun _ => by rw [hmessages]) h₁
  refine ⟨hlost₁.kept (.inl nofun), ?_⟩
  intro st₂ h₂
  by_cases heq : op.source = op.destination
  · have hat₁ := inPlace_uidCopy heq hdest hat h₁
    refine ⟨(noMailLost_uidStore hlost₁ hat₁ h₂).kept (.inl nofun), ?_⟩
    intro st₃ h₃
    rw [serve_uidStore hat₁] at h₂
    cases h₂
    exact (noMailLost_purged_inPlace heq (hat₁.put _) hsource (hcopies heq) h₃).kept (.inl nofun)
  · obtain ⟨hat₁, harrived⟩ := apart_uidCopy heq hdest hat h₁
    refine ⟨(noMailLost_uidStore hlost₁ hat₁ h₂).kept (.inl nofun), ?_⟩
    intro st₃ h₃
    rw [serve_uidStore hat₁] at h₂
    cases h₂
    refine (noMailLost_purged_apart heq (hat₁.put _) hsource ?_ h₃).kept (.inl nofun)
    rw [Store.messages_put_of_ne _ (Ne.symm heq), harrived, hmessages]

/-- The writes of `delete_message` after its STORE. -/
theorem kept_moveToTrash (op : Operation) {dest : String}
    (hne : op.destination ≠ op.source) (hdest : mailboxName dest = op.destination)
    (hat : st.At op.source (box.store op.targets [.deleted] .add))
    (hsource : before.messages op.source = box.messages)
    (hrest : st.messages op.destination = before.messages op.destination) :
    (∀ st', serve policy st (.uidMove op.targets dest) = some st' → caps ≠ .unknown →
        Kept caps op before st') ∧
      ∀ hasUidplus, caps = .known false hasUidplus →
        ∀ st₁, serve policy st (.uidCopy op.targets dest) = some st₁ → Kept caps op before st₁ ∧
          ∀ st₂, serve policy st₁ (expungeCommand op.targets hasUidplus) = some st₂ →
            Kept caps op before st₂ := by
  have hstored : contents (box.store op.targets [.deleted] .add).messages =
      contents (before.messages op.source) := by
    rw [hsource]
    exact contents_store _ _ _ _
  constructor
  · intro st' hst hknown
    have hlost : NoMailLost caps op before st' :=
      noMailLost_uidMove hdest hat hstored (fun _ => by rw [hrest]) hst
    exact hlost.kept (.inl hknown)
  · rintro hasUidplus rfl st₁ h₁
    have hlost : NoMailLost (.known false hasUidplus) op before st₁ :=
      noMailLost_uidCopy hdest hat hstored (fun _ => by rw [hrest]) h₁
    refine ⟨hlost.kept (.inl nofun), ?_⟩
    intro st₂ h₂
    obtain ⟨hat₁, harrived⟩ := apart_uidCopy hne.symm hdest hat h₁
    refine (noMailLost_purged_apart hne.symm hat₁ hsource ?_ h₂).kept (.inl nofun)
    rw [harrived, hrest]
    congr 1
    exact contents_filter_store _ _ _ (fun uid => uid ∈ op.targets) box.messages

theorem not_remains_iff {hasUidplus : Bool} {uids : List Uid} {m : Message γ} :
    ¬ remains hasUidplus uids m = true ↔
      m.uid ∈ uids ∨ hasUidplus = false ∧ m.deleted = true := by
  by_cases hlisted : m.uid ∈ uids <;> simp [remains, hlisted]

theorem runs_move {src dest : String} {uids : List Uid} {uidvalidity : Option Nat}
    (hsafe : ¬ (Operation.move src dest uids uidvalidity).losesMail policy caps before) :
    Runs policy ((Operation.move src dest uids uidvalidity).body caps) before
      (Kept caps (.move src dest uids uidvalidity) before) fun folderWide _ issued =>
        folderWide = true ↔ Command.expunge ∈ issued := by
  apply runs_bind.mpr
  apply runs_bind.mpr
  apply runs_select (kept_of_mailboxes rfl)
  intro box hname hbox
  refine ⟨kept_of_mailboxes rfl, fun _ => ?_⟩
  have hat : Store.At { before with selected := some (mailboxName src) } (mailboxName src) box :=
    ⟨rfl, hbox⟩
  apply runs_mono (runs_moveMessages (kept_of_mailboxes rfl) _ _)
  · intro outcome st' issued hkept hflag
    apply runs_pure hkept
    simpa using hflag
  · intro hknown st' hst
    have hsource := Store.messages_of_mailboxes hbox
    have hlost : NoMailLost caps (.move src dest uids uidvalidity) before st' :=
      noMailLost_uidMove rfl hat (congrArg contents hsource.symm) (fun _ => rfl) hst
    exact hlost.kept (.inl hknown)
  · rintro hasUidplus rfl hdest hlength
    apply kept_fallback (.move src dest uids uidvalidity) rfl hat rfl
    intro heq m hm
    by_contra hremains
    refine hsafe ⟨heq, hname, hdest, hlength, box, hasUidplus, hbox, rfl, m, hm, ?_⟩
    rw [← not_remains_iff]
    exact hremains

/-- A move to the Trash goes to another mailbox. -/
theorem mailboxName_ne {a b : String} (h : eqIgnoreAsciiCase a b = false) :
    mailboxName a ≠ mailboxName b := by
  intro heq
  unfold mailboxName at heq
  split at heq <;> split at heq
  · rename_i ha hb
    have hab : eqIgnoreAsciiCase a b = true := by
      simp only [eqIgnoreAsciiCase, beq_iff_eq] at ha hb ⊢
      rw [ha, hb]
    rw [h] at hab
    cases hab
  · rename_i ha hb
    rw [← heq] at hb
    exact hb (by decide)
  · rename_i ha hb
    rw [heq] at ha
    exact ha (by decide)
  · rw [heq] at h
    simp [eqIgnoreAsciiCase] at h

theorem runs_delete {src trash : String} {uid : Uid} {uidvalidity : Option Nat} :
    Runs policy ((Operation.delete src uid trash uidvalidity).body caps) before
      (Kept caps (.delete src uid trash uidvalidity) before) fun folderWide _ issued =>
        folderWide = true ↔ Command.expunge ∈ issued := by
  apply runs_bind.mpr
  apply runs_bind.mpr
  apply runs_select (kept_of_mailboxes rfl)
  intro box hname hbox
  refine ⟨kept_of_mailboxes rfl, fun selected => ?_⟩
  apply runs_bind.mpr
  apply runs_check (checkUidvalidity_cases _ _ _) (kept_of_mailboxes rfl)
  apply runs_bind.mpr
  have hat : Store.At { before with selected := some (mailboxName src) } (mailboxName src) box :=
    ⟨rfl, hbox⟩
  apply runs_mono (runs_deleteMessage (kept_of_mailboxes rfl) _ _)
  · intro result st' issued hkept hflag
    apply runs_pure hkept
    apply runs_pure hkept
    simpa using hflag
  · intro hcaps st₁ h₁
    have hselected : NoMailLost caps (.delete src uid trash uidvalidity) before
        { before with selected := some (mailboxName src) } := noMailLost_of_mailboxes rfl
    have hlost := noMailLost_uidStore hselected hat h₁
    exact hlost.kept (hcaps.imp_right fun hsame => by simp [Operation.needsMove, hsame])
  · intro hother st₁ h₁
    have hne : mailboxName trash ≠ mailboxName src := (mailboxName_ne hother).symm
    have hsource := Store.messages_of_mailboxes hbox
    rw [serve_uidStore hat] at h₁
    cases h₁
    have hrest := Store.messages_put_of_ne { before with selected := some (mailboxName src) } hne
      (box.store [uid] [.deleted] .add)
    exact kept_moveToTrash (.delete src uid trash uidvalidity) hne rfl (hat.put _) hsource hrest

theorem Runs.keeps {op : Operation}
    (h : Runs policy (op.body caps) before (Kept caps op before) fun folderWide _ issued =>
      folderWide = true ↔ Command.expunge ∈ issued) (answers : List Answer) :
    Keeps caps op before (exec policy (op.body caps) before answers) where
  noMailLost := (h answers).1.1
  flag := (h answers).2
  refused := (h answers).1.2

/-! ## A move in place that loses mail -/

theorem Runs.of_runExpunge {P : Store γ → Prop} {uids : List Uid} {hasUidplus : Bool}
    {Q : Unit → Store γ → List Command → Prop}
    (h : Runs policy (runExpunge uids (expungeStrategy hasUidplus)) st P Q) {st' : Store γ}
    (hserve : serve policy st (expungeCommand uids hasUidplus) = some st') : P st' := by
  rcases hasUidplus with _ | _ <;> exact ((runs_bind.mp h).of_collect hserve).start

/-- The fallback over commands that the server completes. -/
theorem Runs.of_copyDeleteFallback {P : Store γ → Prop} {dest : String} {uids : List Uid}
    {hasUidplus : Bool} {Q : List MoveResult × Option Nat → Store γ → List Command → Prop}
    (h : Runs policy (copyDeleteFallback dest uids hasUidplus) st P Q)
    (hname : controlByteAt 0 dest.toList = none) (hne : uids ≠ [])
    (hlength : uids.length ≤ MAX_BATCH) {st₁ st₂ st₃ : Store γ}
    (h₁ : serve policy st (.uidCopy uids dest) = some st₁)
    (hstatus : serve policy st₁ (.status dest) = some st₁)
    (h₂ : serve policy st₁ (.uidStore uids [.deleted] .add) = some st₂)
    (h₃ : serve policy st₂ (expungeCommand uids hasUidplus) = some st₃) : P st₃ := by
  have hvalid := validateServerFolderName_of_none hname
  rw [copyDeleteFallback, hvalid] at h
  replace h := (runs_bind.mp h).of_pure
  replace h := (runs_bind.mp h).of_send h₁ {}
  rw [status, hvalid] at h
  replace h := (runs_bind.mp (runs_bind.mp h)).of_pure.of_send hstatus {}
  rw [store, if_neg (by omega), if_neg (by simpa using hne)] at h
  replace h := (runs_bind.mp (runs_bind.mp h)).of_pure
  replace h := ((runs_bind.mp h).of_collect h₂).of_pure
  exact (runs_bind.mp h).of_runExpunge h₃

/-- The guard is passed when the server leaves UIDVALIDITY out. -/
theorem Runs.of_guardSource {P : Store γ → Prop} {src : String} {expected : Option Nat}
    {Q : Option Nat → Store γ → List Command → Prop}
    (h : Runs policy (guardSource src expected) st P Q)
    (hname : controlByteAt 0 src.toList = none)
    (hstatus : serve policy st (.status src) = some st) : ∃ issued, Q none st issued := by
  rcases expected with _ | expected
  · exact ⟨_, h.of_pure⟩
  · rw [guardSource, status, validateServerFolderName_of_none hname] at h
    replace h := (runs_bind.mp (runs_bind.mp h)).of_pure.of_send hstatus {}
    exact ⟨_, h.of_pure⟩

/-- A move in place without MOVE reaches the EXPUNGE. -/
theorem Runs.of_move {P : Store γ → Prop} {src dest : String} {uids : List Uid}
    {uidvalidity : Option Nat} {hasUidplus : Bool}
    {Q : Bool → Store γ → List Command → Prop}
    (h : Runs policy ((Operation.move src dest uids uidvalidity).body (.known false hasUidplus))
      before P Q)
    (heq : mailboxName src = mailboxName dest) (hsrc : controlByteAt 0 src.toList = none)
    (hdest : controlByteAt 0 dest.toList = none) (hne : uids ≠ [])
    (hlength : uids.length ≤ MAX_BATCH)
    (hbox : before.mailboxes (mailboxName src) = some box) :
    ∃ after : Store γ, P after ∧ after.messages (mailboxName src) =
      (((box.receive policy (box.listed uids)).store uids [.deleted] .add).expunge
        (expungeScope hasUidplus uids)).messages := by
  let st : Store γ := { before with selected := some (mailboxName src) }
  have hat : st.At (mailboxName src) box := ⟨rfl, hbox⟩
  have hselect : serve policy before (.select src false) = some st := by
    simp [serve, hbox, st]
  have hstatus : serve policy st (.status src) = some st := by
    simp [serve, hat.mailbox]
  have hcopy : serve policy st (.uidCopy uids dest) =
      some (st.put (mailboxName src) (box.receive policy (box.listed uids))) := by
    simp [serve, hat.selected, hat.mailbox, ← heq]
  have hat₁ := hat.put (box.receive policy (box.listed uids))
  have hat₂ := hat₁.put ((box.receive policy (box.listed uids)).store uids [.deleted] .add)
  rw [Operation.body, moveBody, select, validateServerFolderName_of_none hsrc] at h
  replace h := (runs_bind.mp (runs_bind.mp (runs_bind.mp h))).of_pure.of_send hselect {}
  rw [moveMessages, validateServerFolderName_of_none hdest, if_neg (by omega),
    if_neg (by simpa using hne)] at h
  replace h := (runs_bind.mp (runs_bind.mp h).of_pure).of_pure
  obtain ⟨issued, h⟩ := (runs_bind.mp h).of_guardSource hsrc hstatus
  refine ⟨_, (runs_bind.mp h).of_copyDeleteFallback hdest hne hlength hcopy ?_
    (serve_uidStore hat₁ _ _) (serve_expungeCommand hat₂ _), ?_⟩
  · simp [serve, ← heq]
  · simp

theorem not_noMailLost_of_losesMail
    (hloses : op.losesMail policy caps before)
    (h : Runs policy (op.body caps) before (NoMailLost caps op before) fun _ _ _ => True) :
    False := by
  rcases op with ⟨src, dest, uids, uidvalidity⟩ | _
  · obtain ⟨heq, hsrc, hdest, hlength, box, hasUidplus, hbox, rfl, m, hm, hlost⟩ := hloses
    have hne : uids ≠ [] := by
      rintro rfl
      simp [Mailbox.listed, copies] at hm
    obtain ⟨after, hafter, hmessages⟩ := h.of_move heq hsrc hdest hne hlength hbox
    -- the messages to be kept are as many as those that remain with all the copies
    have hlist : (contents (box.messages.filter (spared (.known false hasUidplus) uids))).Subperm
        (contents (after.messages (mailboxName src))) := by
      rw [← Store.messages_of_mailboxes hbox]
      exact (noMailLost_inPlace (by exact heq)).mp hafter
    have hkept := (contents_spared hasUidplus uids box.messages).length_eq
    have hcopies : ((copies policy box.uidNext (box.listed uids)).filter
        (remains hasUidplus uids)).length < (copies policy box.uidNext (box.listed uids)).length :=
      List.length_filter_lt_length_iff_exists.mpr ⟨m, hm, not_remains_iff.mpr hlost⟩
    have hlisted := congrArg List.length (contents_copies policy box.uidNext (box.listed uids))
    have hle := hlist.length_le
    rw [hmessages, contents_expunge_store, contents_inPlace, hkept] at hle
    simp only [contents, Mailbox.listed, List.length_append, List.length_map] at hle hlisted hcopies
    omega
  · exact hloses

end

/-- **Move and delete lose no mail, but for a move in place without MOVE.**  Every run
    of an operation keeps its mail if and only if it is not such a move whose copies
    the EXPUNGE removes. -/
theorem keeps_iff_not_losesMail (policy : UidPolicy) (caps : ServerCapabilities) (op : Operation)
    (before : Store γ) :
    (∀ answers, Keeps caps op before (exec policy (op.body caps) before answers)) ↔
      ¬ op.losesMail policy caps before := by
  constructor
  · intro hkeeps hloses
    apply not_noMailLost_of_losesMail hloses
    intro answers
    exact ⟨(hkeeps answers).noMailLost, fun _ _ => trivial⟩
  · intro hsafe
    rcases op with ⟨src, dest, uids, uidvalidity⟩ | ⟨src, uid, trash, uidvalidity⟩
    · exact (runs_move hsafe).keeps
    · exact runs_delete.keeps

/-- INBOX with one message. -/
def inboxOf (m : Message String) (uidNext : Uid) : Store String where
  mailboxes name := if name = "INBOX" then some ⟨[m], uidNext⟩ else none
  selected := none

/-- The server takes UIDNEXT. -/
def consecutive : UidPolicy := ⟨id, fun _ => le_rfl⟩

def moveInPlace (uids : List Uid) : Operation := .move "INBOX" "INBOX" uids none

/-- A message that was flagged already is gone without UIDPLUS; with it, so is one
    whose copy gets the absent UID of the batch. -/
theorem not_keeps_moveInPlace :
    (¬ Keeps (.known false false) (moveInPlace [5]) (inboxOf ⟨5, "invoice", [.deleted]⟩ 6)
        (exec consecutive ((moveInPlace [5]).body (.known false false))
          (inboxOf ⟨5, "invoice", [.deleted]⟩ 6) (List.replicate 5 (.completes {} [])))) ∧
      ¬ Keeps (.known false true) (moveInPlace [5, 6]) (inboxOf ⟨5, "invoice", []⟩ 6)
        (exec consecutive ((moveInPlace [5, 6]).body (.known false true))
          (inboxOf ⟨5, "invoice", []⟩ 6) (List.replicate 5 (.completes {} []))) := by
  constructor
  · intro h
    exact absurd h.noMailLost.length_le (by decide +kernel)
  · intro h
    exact absurd h.noMailLost.length_le (by decide +kernel)

/-! ## What a server advertises -/

inductive Capability where
  | imap4rev1
  | auth (mechanism : String)
  | atom (name : String)
deriving DecidableEq, Repr

def advertises (caps : List Capability) (probe : String) : Bool :=
  caps.any fun cap =>
    match cap with
    | .atom name => eqIgnoreAsciiCase name probe
    | .imap4rev1 | .auth _ => false

def carriesRev1 (caps : List Capability) : Bool := caps.contains .imap4rev1

/-- `read_capabilities`; none for a probe that failed. -/
def readCapabilities : Option (List Capability) → ServerCapabilities
  | none => .unknown
  | some caps =>
      let rev2 := advertises caps "IMAP4rev2"
      if !carriesRev1 caps && !rev2 then .unknown
      else .known (advertises caps "MOVE" || rev2) (advertises caps "UIDPLUS" || rev2)

/-- The pair that allows a folder-wide EXPUNGE comes from a listing of IMAP4rev1 that
    names neither extension. -/
theorem readCapabilities_eq_neither {reply : Option (List Capability)}
    (h : readCapabilities reply = .known false false) :
    ∃ caps, reply = some caps ∧ carriesRev1 caps = true ∧ advertises caps "MOVE" = false ∧
      advertises caps "UIDPLUS" = false := by
  rcases reply with _ | caps
  · cases h
  · simp only [readCapabilities] at h
    split at h
    · cases h
    · rename_i hreadable
      simp only [ServerCapabilities.known.injEq, Bool.or_eq_false_iff] at h
      exact ⟨caps, rfl, by simpa [h.1.2] using hreadable, h.1.1, h.2.1⟩

/-- With any other answer to the probe, an operation between two mailboxes keeps every
    message, flagged or not. -/
theorem all_kept_of_readCapabilities {policy : UidPolicy} {reply : Option (List Capability)}
    (hreply : readCapabilities reply ≠ .known false false) {op : Operation}
    (hne : op.source ≠ op.destination) (before : Store γ) (answers : List Answer) :
    (contents (before.messages op.source) ++ contents (before.messages op.destination)).Subperm
      (contents ((exec policy (op.body (readCapabilities reply)) before answers).store.messages
          op.source) ++
        contents ((exec policy (op.body (readCapabilities reply)) before answers).store.messages
          op.destination)) := by
  have hkept : NoMailLost (readCapabilities reply) op before
      (exec policy (op.body (readCapabilities reply)) before answers).store := by
    rcases op with ⟨src, dest, uids, uidvalidity⟩ | ⟨src, uid, trash, uidvalidity⟩
    · exact ((runs_move fun hloses => hne hloses.1).keeps answers).noMailLost
    · exact (runs_delete.keeps answers).noMailLost
  have hall : (before.messages op.source).filter (spared (readCapabilities reply) op.targets) =
      before.messages op.source := by
    simp [List.filter_eq_self, spared, hreply]
  rwa [NoMailLost, held, held, if_neg hne, if_neg hne, hall] at hkept

end RustyImap.MailStore
