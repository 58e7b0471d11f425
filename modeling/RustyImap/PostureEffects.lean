import RustyImap.BodyCommands
import RustyImap.HandlerCalls

/-!
# What a posture lets happen to the mail of an account

Any number of tool calls on one account, interleaved: a call is admitted by the posture
stage, its handler runs as a program, one call after the other, and may be dropped at
any point.  A call to the connection runs its body over the server, with the answers
that the environment chooses; a read-only one may be run a second time, as
`with_session` does after a lost connection.

Each result holds in every such interleaving.  Nobody else is at the mailboxes.
-/

namespace RustyImap.PostureEffects

open RustyImap.LabelledRuns RustyImap.CallTrees RustyImap.ImapOps RustyImap.ToolHandlers
open RustyImap.ContentParse (Bytes)
open RustyImap.MailboxTree (Hierarchy exec)
open RustyImap.MailServer
open RustyImap.MailStore (Message mailboxName contents)
open RustyImap.ProtectedFolders (normalizeFolderName isProtected)
open RustyImap.SessionDispatch (Operation)

variable {γ : Type}

/-! ## The world -/

structure World (γ : Type) where
  server : Server γ
  outbox : List (SendEnvelope × Bytes)

/-- One attempt of `with_session`. -/
structure Attempt where
  caps : ServerCapabilities
  fresh : Bool                       -- on a new session, with nothing selected
  answers : List MailStore.Answer

structure Choice where
  first : Attempt
  again : Option Attempt             -- taken by a read-only operation only
  delivered : Bool
  reply : (op : ToolOp) → Option (Answer op)

/-- The server as the attempt finds it. -/
def Attempt.session (attempt : Attempt) (srv : Server γ) : Server γ :=
  { srv with selected := if attempt.fresh then none else srv.selected }

def runBody (kind : Kind γ) (op : Operation) (srv : Server γ) (attempt : Attempt) : Server γ :=
  exec (serve kind) (op.body attempt.caps) (attempt.session srv) attempt.answers

def runOperation (kind : Kind γ) (op : Operation) (srv : Server γ) (choice : Choice) : Server γ :=
  match choice.again, op.idempotency with
  | some again, .readOnly => runBody kind op (runBody kind op srv choice.first) again
  | _, _ => runBody kind op srv choice.first

def perform (kind : Kind γ) (w : World γ) (op : ToolOp) (choice : Choice) :
    World γ × Option (Answer op) :=
  let w' : World γ := match op with
    | .imap op => { w with server := runOperation kind op w.server choice }
    | .smtpSend envelope raw =>
        if choice.delivered then { w with outbox := w.outbox ++ [(envelope, raw)] } else w
    | .readSandboxedFile _ _ | .resolveDestDir _ | .writeAttachment _ _ _ | .exportToken => w
  (w', choice.reply op)

/-- A `tools/call`. -/
structure Request where
  name : String
  args : Option JsonMap

def accept (matrix : EffectiveMatrix) (account : Account) (request : Request) :
    Option (Tree Answer Unit) :=
  match postureStage matrix request.name request.args with
  | .admitted _ refined =>
      some do
        let _ ← (dispatchTool account refined (request.args.getD .empty)).run
        pure ()
  | .rejected _ | .infrastructure _ | .denied _ => none

def machine (kind : Kind γ) (matrix : EffectiveMatrix) (account : Account) :
    Machine Answer (World γ) Request Choice where
  accept := accept matrix account
  perform := perform kind

/-- A pool at its start. -/
def idle (w : World γ) : Pool Answer (World γ) := ⟨w, []⟩

/-! ## What one call does -/

section

variable {kind : Kind γ}

theorem readOnly_of_effect {op : Operation} (h : effectOf op = .reads) :
    op.idempotency = .readOnly ∧ BodyCommands.peeks op = true := by
  cases op with
  | fetch folder uids items uidvalidity =>
      simp only [effectOf] at h
      split at h
      · cases h
      · rename_i hpeeks
        exact ⟨rfl, by simpa [BodyCommands.peeks] using hpeeks⟩
  | storeFlags folder uids flags action uidvalidity => cases h
  | moveMessages src dest uids uidvalidity => cases h
  | appendMessage folder message flags keywords limit => cases h
  | deleteMessage folder uid trash uidvalidity => cases h
  | expunge folder => cases h
  | createFolder name => cases h
  | renameFolder oldName newName => cases h
  | deleteFolder name => cases h
  | _ => exact ⟨rfl, rfl⟩

/-- No operation of the connection is about files. -/
theorem effectOf_ne_files (op : Operation) : effectOf op ≠ .files := by
  intro h
  cases op with
  | fetch folder uids items uidvalidity =>
      rw [effectOf] at h
      split at h
      · cases h
      · cases h
  | _ => cases h

theorem purges_of_effect {op : Operation} (h : effectOf op ≠ .purges) :
    BodyCommands.purges op = false := by
  cases op with
  | expunge folder => exact absurd rfl h
  | deleteFolder name => exact absurd rfl h
  | _ => rfl

theorem tree_runBody {op : Operation} (h : effectOf op = .reads) (srv : Server γ)
    (attempt : Attempt) : (runBody kind op srv attempt).tree = srv.tree := by
  obtain ⟨hreadOnly, hpeeks⟩ := readOnly_of_effect h
  exact BodyCommands.tree_of_sends_reads (BodyCommands.sends_reads _ hreadOnly hpeeks) _

theorem tree_runOperation {op : Operation} (h : effectOf op = .reads) (srv : Server γ)
    (choice : Choice) : (runOperation kind op srv choice).tree = srv.tree := by
  unfold runOperation
  split
  · rw [tree_runBody h, tree_runBody h]
  · exact tree_runBody h srv choice.first

/-- The session, and the one of a second attempt, has MOVE if its capabilities are known. -/
def Choice.movesAtomically (choice : Choice) : Bool :=
  BodyCommands.hasNoFallback choice.first.caps &&
    choice.again.all fun again => BodyCommands.hasNoFallback again.caps

theorem keepsAll_runBody {op : Operation} (h : effectOf op ≠ .purges) (srv : Server γ)
    {attempt : Attempt} (hmove : BodyCommands.hasNoFallback attempt.caps = true) :
    KeepsAll srv.tree (runBody kind op srv attempt).tree :=
  BodyCommands.keepsAll_of_sends_lossless
    (BodyCommands.sends_lossless hmove (purges_of_effect h)) (attempt.session srv) attempt.answers

theorem keepsAll_runOperation {op : Operation} (h : effectOf op ≠ .purges) (srv : Server γ)
    {choice : Choice} (hmove : choice.movesAtomically = true) :
    KeepsAll srv.tree (runOperation kind op srv choice).tree := by
  rw [Choice.movesAtomically, Bool.and_eq_true] at hmove
  unfold runOperation
  split
  · rename_i again hagain _
    rw [hagain] at hmove
    exact (keepsAll_runBody h srv hmove.1).trans (keepsAll_runBody h _ hmove.2)
  · exact keepsAll_runBody h srv hmove.1

/-! ## What the folder guard lets go -/

/-- A mailbox that `expunge_folders` names. -/
def mayPurge (account : Account) (name : String) : Bool :=
  account.folderGuard.expungeAllowed.contains (normalizeFolderName account.names name)

/-- A message that may go for good: flagged `\Deleted`, or in a mailbox that may go. -/
def purgeable (account : Account) (name : String) (m : Message γ) : Bool :=
  mayPurge account name && (m.deleted || !isProtected account.names account.folderGuard name)

def sparedBy (account : Account) (name : String) (m : Message γ) : Bool :=
  !purgeable account name m

theorem normalize_mailboxName (names : ProtectedFolders.NameLibs) (folder : String) :
    normalizeFolderName names (mailboxName folder) = normalizeFolderName names folder := by
  unfold mailboxName
  split
  · rename_i hinbox
    rw [ProtectedFolders.normalize_inbox names hinbox,
      ProtectedFolders.normalize_inbox names (by decide)]
  · rfl

theorem checkExpunge_eq_ok {account : Account} {folder : String}
    (h : account.folderGuard.checkExpunge account.names folder = .ok ()) :
    mayPurge account (mailboxName folder) = true := by
  obtain ⟨norm, hnorm, h⟩ := bind_eq_ok h
  have hsame : norm = normalizeFolderName account.names folder := by
    unfold ProtectedFolders.validateAndNormalize at hnorm
    split at hnorm
    · cases hnorm
    · exact (Except.ok.inj hnorm).symm
  split at h
  · rename_i hallowed
    rw [mayPurge, normalize_mailboxName, ← hsame]
    exact hallowed
  · cases h

/-- What writes is run once. -/
theorem runOperation_of_mutating {op : Operation} (h : op.idempotency = .mutating)
    (srv : Server γ) (choice : Choice) :
    runOperation kind op srv choice = runBody kind op srv choice.first := by
  unfold runOperation
  split
  · rename_i hreadOnly
    rw [h] at hreadOnly
    cases hreadOnly
  · rfl

theorem sparedByExpunge_of_sparedBy {account : Account} {folder : String}
    (hmay : mayPurge account (mailboxName folder) = true) (name : String) (m : Message γ)
    (h : sparedBy account name m = true) : BodyCommands.sparedByExpunge folder name m = true := by
  by_cases hname : mailboxName folder = name
  · subst hname
    have hdeleted : m.deleted = false := by
      by_contra hdeleted
      simp [sparedBy, purgeable, hmay, hdeleted] at h
    simp [BodyCommands.sparedByExpunge, hdeleted]
  · simp [BodyCommands.sparedByExpunge, hname]

theorem ne_of_sparedBy {account : Account} {folder : String}
    (hmay : mayPurge account (mailboxName folder) = true)
    (hnot : isProtected account.names account.folderGuard (mailboxName folder) = false)
    (name : String) (m : Message γ) (h : sparedBy account name m = true) :
    (!(name == mailboxName folder)) = true := by
  by_cases hname : name = mailboxName folder
  · simp [sparedBy, purgeable, hname, hmay, hnot] at h
  · simp [hname]

/-- A purge that is permitted leaves every message that may not go. -/
theorem keepsPicked_of_permits {account : Account} {op : Operation}
    (hpermits : account.permits (.imap op)) (hpurges : effectOf op = .purges) (srv : Server γ)
    (choice : Choice) :
    KeepsPicked (sparedBy account) srv.tree (runOperation kind op srv choice).tree := by
  cases op with
  | expunge folder =>
      rw [runOperation_of_mutating rfl]
      have hkeeps := @BodyCommands.keepsPicked_expunge _ kind (choice.first.session srv)
        choice.first.caps folder choice.first.answers
      exact KeepsPicked.imp hkeeps (sparedByExpunge_of_sparedBy (checkExpunge_eq_ok hpermits))
  | deleteFolder name =>
      rw [runOperation_of_mutating rfl]
      have hprotected :
          isProtected account.names account.folderGuard (mailboxName name) = false := by
        rw [isProtected, normalize_mailboxName]
        exact ProtectedFolders.checkProtected_eq_ok hpermits.2
      have hkeeps := @BodyCommands.keepsPicked_deleteFolder _ kind (choice.first.session srv)
        choice.first.caps name choice.first.answers
      exact KeepsPicked.imp hkeeps (ne_of_sparedBy (checkExpunge_eq_ok hpermits.1) hprotected)
  | fetch folder uids items uidvalidity =>
      simp only [effectOf] at hpurges
      split at hpurges
      · cases hpurges
      · cases hpurges
  | _ => cases hpurges

/-! ## What a call does to the world -/

section

variable {account : Account} {op : ToolOp}

theorem perform_reading (h : op.effect ∈ READING) (w : World γ) (choice : Choice) :
    (perform kind w op choice).1.server.tree = w.server.tree ∧
      (perform kind w op choice).1.outbox = w.outbox := by
  cases op with
  | imap op =>
      have hreads : effectOf op = .reads := by
        rcases List.mem_cons.mp h with hreads | hfiles
        · exact hreads
        · exact absurd (List.mem_singleton.mp hfiles) (effectOf_ne_files op)
      exact ⟨tree_runOperation hreads _ _, rfl⟩
  | smtpSend envelope raw => simp [ToolOp.effect, READING] at h
  | _ => exact ⟨rfl, rfl⟩

theorem perform_keepsAll (h : op.effect ≠ .purges) (w : World γ) {choice : Choice}
    (hmove : choice.movesAtomically = true) :
    KeepsAll w.server.tree (perform kind w op choice).1.server.tree := by
  cases op with
  | imap op => exact keepsAll_runOperation h _ hmove
  | smtpSend envelope raw =>
      simp only [perform]
      split
      · exact keepsAll_refl _
      · exact keepsAll_refl _
  | _ => exact keepsAll_refl _

theorem perform_spares (h : account.permits op) (w : World γ) {choice : Choice}
    (hmove : choice.movesAtomically = true) :
    KeepsPicked (sparedBy account) w.server.tree (perform kind w op choice).1.server.tree := by
  by_cases hpurges : op.effect = .purges
  · cases op with
    | imap op => exact keepsPicked_of_permits h hpurges _ _
    | _ => cases hpurges
  · exact (perform_keepsAll hpurges w hmove).picked _

theorem length_outbox_perform (w : World γ) (choice : Choice) :
    (perform kind w op choice).1.outbox.length ≤ w.outbox.length + (isSend op).toNat := by
  cases op with
  | smtpSend envelope raw =>
      simp only [perform]
      split
      · simp [isSend]
      · exact Nat.le_add_right _ _
  | _ => exact Nat.le_add_right _ _

end

/-- An admitted call is of a tool that the matrix allows, and stays within it. -/
theorem within_of_accept {matrix : EffectiveMatrix} {account : Account} {request : Request}
    {program : Tree Answer Unit} (h : accept matrix account request = some program) :
    ∃ tool, matrix.allows tool = true ∧ program.Within (Stays account (effects tool)) := by
  unfold accept at h
  split at h
  · rename_i wire refined hstage
    obtain ⟨-, -, -, hallows⟩ := postureStage_eq_admitted.mp hstage
    cases h
    exact ⟨refined, hallows, Tree.within_bind (calls_dispatchTool refined _) fun _ => trivial⟩
  all_goals cases h

/-- The mails that a request may send. -/
def mailsAdmitted (matrix : EffectiveMatrix) (request : Request) : Nat :=
  match postureStage matrix request.name request.args with
  | .admitted _ refined => mailsOf refined
  | .rejected _ | .infrastructure _ | .denied _ => 0

theorem atMost_of_accept {matrix : EffectiveMatrix} {account : Account} {request : Request}
    {program : Tree Answer Unit} (h : accept matrix account request = some program) :
    program.AtMost isSend (mailsAdmitted matrix request) := by
  unfold accept at h
  unfold mailsAdmitted
  split at h
  · rename_i wire refined hstage
    cases h
    refine (Tree.atMost_bind (atMost_dispatchTool refined _) ?_ : Tree.AtMost isSend (_ + 0) _)
    exact fun _ => trivial
  all_goals cases h

theorem confined_idle {P : ToolOp → Prop} (w : World γ) : Confined P (idle w) := by
  rintro program ⟨⟩

end

/-! ## A sample account -/

namespace Sample

def kind : Kind Nat where
  policy := ⟨id, fun _ => Nat.le_refl _⟩
  delimiter := some '/'
  deliver := List.length

def account : Account where
  libs := SubCapability.sampleLibs SubCapability.plainMessage []
  names := ProtectedFolders.plainLibs
  timeParse _ := .error "no dates"
  messageParts _ := .ok []
  username := "alice@example.com"
  specialUse := .empty
  folderGuard := .new ProtectedFolders.plainLibs ["INBOX", "Trash"] ["Trash"]
  smtp := true
  maxFetchBodyBytes := 1000
  maxAppendBytes := 1000

/-- A message in the inbox, and one in the trash that is flagged to go. -/
def world : World Nat where
  server := {
    tree := ⟨[("INBOX", some [⟨1, 7, []⟩]), ("Trash", some [⟨1, 8, [.deleted]⟩])], by decide⟩
    uidNext := fun _ => 2
    selected := none }
  outbox := []

def matrix (posture : Posture) : EffectiveMatrix := EffectiveMatrix.build posture fun _ => none

/-- On a session with MOVE, where every command completes; the program is not answered. -/
def completes : Choice where
  first := ⟨.known true true, true, List.replicate 5 (.completes {} [])⟩
  again := none
  delivered := true
  reply _ := none

def fetchRequest : Request where
  name := "fetch_message"
  args := some ⟨[("folder", .string "INBOX"), ("uid", .number "1")], by decide⟩

def moveRequest : Request where
  name := "move_message"
  args := some ⟨[("folder", .string "INBOX"), ("destination", .string "Trash"),
    ("uid", .number "1")], by decide⟩

def expungeRequest : Request where
  name := "expunge"
  args := some ⟨[("folder", .string "Trash")], by decide⟩

def sendRequest : Request where
  name := "send_email"
  args := some ⟨[("to", .array [.object [("address", .string "bob@example.com")]]),
    ("subject", .string "a"), ("body_text", .string "b")], by decide⟩

/-- Each request is started, and then makes its first call. -/
def labels (requests : List Request) : List (Label Request Choice) :=
  requests.map .start ++ (List.range requests.length).map fun i => .advance i completes

theorem movesAtomically_of_mem {requests : List Request} {i : Nat} {choice : Choice}
    (h : .advance i choice ∈ labels requests) : choice.movesAtomically = true := by
  rcases List.mem_append.mp h with hstart | hadvance
  · obtain ⟨request, -, heq⟩ := List.mem_map.mp hstart
    cases heq
  · obtain ⟨j, -, heq⟩ := List.mem_map.mp hadvance
    cases heq
    rfl

end Sample

/-! ## Every interleaving -/

section

variable {kind : Kind γ} {matrix : EffectiveMatrix} {account : Account} {w : World γ}
variable {labels : List (Label Request Choice)} {pool : Pool Answer (World γ)}

/-- **A posture that only reads changes nothing.**  Whatever tools are called, however
    their calls are interleaved, answered, retried or dropped: the mailboxes, their
    messages and their flags are what they were, and no mail was sent. -/
theorem reading_matrix_changes_nothing
    (hreading : ∀ tool, matrix.allows tool = true → effects tool = READING)
    (hrun : run (step (machine kind matrix account)) (idle w) labels = some pool) :
    pool.state.server.tree = w.server.tree ∧ pool.state.outbox = w.outbox := by
  have haccept : ∀ request program, (machine kind matrix account).accept request = some program →
      program.Within fun op => op.effect ∈ READING := by
    intro request program h
    obtain ⟨tool, hallows, hwithin⟩ := within_of_accept h
    rw [hreading tool hallows] at hwithin
    exact hwithin.mono fun _ hop => hop.1
  exact related_of_run
    (R := fun v v' : World γ => v'.server.tree = v.server.tree ∧ v'.outbox = v.outbox)
    (fun _ => ⟨rfl, rfl⟩) (fun _ _ _ h h' => ⟨h'.1.trans h.1, h'.2.trans h.2⟩)
    (fun v op choice hop _ => perform_reading hop v choice) haccept (confined_idle w)
    (fun _ _ _ => trivial) hrun

theorem reading_matrix_changes_nothing_sample :
    ∃ pool, run (step (machine Sample.kind (Sample.matrix .readonly) Sample.account))
        (idle Sample.world) (Sample.labels [Sample.fetchRequest, Sample.fetchRequest]) = some pool ∧
      pool.state.server.tree = Sample.world.server.tree ∧ pool.state.outbox = [] := by
  have hrun : (run (step (machine Sample.kind (Sample.matrix .readonly) Sample.account))
      (idle Sample.world) (Sample.labels [Sample.fetchRequest, Sample.fetchRequest])).isSome =
        true := by
    decide +kernel
  have hreading : ∀ tool, (Sample.matrix .readonly).allows tool = true →
      effects tool = READING := by
    intro tool
    cases tool <;> decide
  obtain ⟨pool, hpool⟩ := Option.isSome_iff_exists.mp hrun
  exact ⟨pool, hpool, reading_matrix_changes_nothing hreading hpool⟩

/-- **Without a tool that purges, no message is lost**, whatever is moved, deleted to the
    trash, drafted or renamed, as long as moves are atomic. -/
theorem no_message_lost
    (hkeeping : ∀ tool, matrix.allows tool = true → .purges ∉ effects tool)
    (hmove : ∀ i choice, .advance i choice ∈ labels → choice.movesAtomically = true)
    (hrun : run (step (machine kind matrix account)) (idle w) labels = some pool) :
    KeepsAll w.server.tree pool.state.server.tree := by
  have haccept : ∀ request program, (machine kind matrix account).accept request = some program →
      program.Within fun op => op.effect ≠ .purges := by
    intro request program h
    obtain ⟨tool, hallows, hwithin⟩ := within_of_accept h
    refine hwithin.mono fun op hop hpurges => ?_
    exact hkeeping tool hallows (hpurges ▸ hop.1)
  exact related_of_run
    (R := fun v v' : World γ => KeepsAll v.server.tree v'.server.tree)
    (fun _ => keepsAll_refl _) (fun _ _ _ h h' => h.trans h')
    (fun v op choice hop hok => perform_keepsAll hop v hok) haccept (confined_idle w) hmove hrun

/-- The posture `full` purges nothing; the message of the inbox is in the trash at the end. -/
theorem no_message_lost_sample :
    ∃ pool, run (step (machine Sample.kind (Sample.matrix .full) Sample.account))
        (idle Sample.world) (Sample.labels [Sample.fetchRequest, Sample.moveRequest]) = some pool ∧
      KeepsAll Sample.world.server.tree pool.state.server.tree ∧
      (mailbox pool.state.server.tree "Trash").map contents = some [8, 7] := by
  have hrun : (run (step (machine Sample.kind (Sample.matrix .full) Sample.account))
      (idle Sample.world) (Sample.labels [Sample.fetchRequest, Sample.moveRequest])).map
        (fun pool => (mailbox pool.state.server.tree "Trash").map contents) =
        some (some [8, 7]) := by
    decide +kernel
  have hkeeping : ∀ tool, (Sample.matrix .full).allows tool = true → .purges ∉ effects tool := by
    intro tool
    cases tool <;> decide
  obtain ⟨pool, hpool, htrash⟩ := Option.map_eq_some_iff.mp hrun
  exact ⟨pool, hpool,
    no_message_lost hkeeping (fun _ _ => Sample.movesAtomically_of_mem) hpool, htrash⟩

/-- **One mail for one call.**  What is delivered in a run is paid for by the calls of
    `send_email` and `forward` that were admitted, one mail each. -/
theorem deliveries_le_calls
    (hrun : run (step (machine kind matrix account)) (idle w) labels = some pool) :
    pool.state.outbox.length ≤ w.outbox.length + costOf (mailsAdmitted matrix) labels := by
  have hstart : Bounded isSend (idle w).tasks [] := List.Forall₂.nil
  have hone : ∀ v op choice, ((machine kind matrix account).perform v op choice).1.outbox.length ≤
      v.outbox.length + (isSend op).toNat := fun v _ choice => length_outbox_perform v choice
  have hpaid : pool.state.outbox.length ≤
      (idle w).state.outbox.length + [].sum + costOf (mailsAdmitted matrix) labels :=
    @weight_le_cost _ _ _ _ _ _ _ _ _ _ (fun v => v.outbox.length) (fun _ _ => atMost_of_accept)
      hone labels [] hstart hrun
  simpa [idle] using hpaid

theorem deliveries_le_calls_sample :
    ∃ pool, run (step (machine Sample.kind (Sample.matrix .full) Sample.account))
        (idle Sample.world) (Sample.labels [Sample.sendRequest, Sample.moveRequest]) = some pool ∧
      pool.state.outbox =
        [(⟨"alice@example.com", ["bob@example.com"]⟩, ContentParse.utf8Bytes "b")] ∧
      pool.state.outbox.length ≤ 0 + costOf (mailsAdmitted (Sample.matrix .full))
        (Sample.labels [Sample.sendRequest, Sample.moveRequest]) := by
  have hrun : (run (step (machine Sample.kind (Sample.matrix .full) Sample.account))
      (idle Sample.world) (Sample.labels [Sample.sendRequest, Sample.moveRequest])).map
        (fun pool => pool.state.outbox) =
        some [(⟨"alice@example.com", ["bob@example.com"]⟩, ContentParse.utf8Bytes "b")] := by
    decide +kernel
  obtain ⟨pool, hpool, houtbox⟩ := Option.map_eq_some_iff.mp hrun
  exact ⟨pool, hpool, houtbox, deliveries_le_calls hpool⟩

end

end RustyImap.PostureEffects
