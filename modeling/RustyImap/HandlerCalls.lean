import RustyImap.MailServer
import RustyImap.RetrievalHandlers

/-!
# What each handler may call

A call reads mailboxes, writes to them, purges them, sends mail, or is about files.
`effects` says which of these a tool needs; `calls_dispatchTool` that its handler makes
no other call, whatever its arguments and whatever it is answered, and that it purges
no mailbox but with the consent of the folder guard.
-/

namespace RustyImap.ToolHandlers

open RustyImap.CallTrees RustyImap.ImapOps
open RustyImap.MailServer (marksSeen)
open RustyImap.ProtectedFolders (liftGuard)
open RustyImap.SessionDispatch (Operation)

/-! ## Rules for handlers -/

section

variable {α β : Type} {P : ToolOp → Prop}

def Calls (P : ToolOp → Prop) (h : Handler α) : Prop := h.run.Within P

theorem calls_pure (a : α) : Calls P (pure a : Handler α) := trivial

theorem calls_throw (e : RimapError) : Calls P (throw e : Handler α) := trivial

theorem calls_check (r : Except RimapError α) : Calls P (check r) := trivial

theorem calls_await {op : ToolOp} (h : P op) : Calls P (await op) :=
  Tree.within_ask h

theorem calls_imap {op : Operation} (h : P (.imap op)) : Calls P (imap op) := calls_await h

theorem calls_attempt {op : ToolOp} (h : P op) : Calls P (attempt op) := ⟨h, fun _ => trivial⟩

theorem calls_bind {h : Handler α} {f : α → Handler β} (hh : Calls P h)
    (hf : ∀ a, Calls P (f a)) : Calls P (h >>= f) := by
  refine Tree.within_bind hh ?_
  rintro (e | a)
  · trivial
  · exact hf a

/-- A check before the rest: the rest may rely on it. -/
theorem calls_check_bind {r : Except RimapError α} {f : α → Handler β}
    (hf : ∀ a, r = .ok a → Calls P (f a)) : Calls P (check r >>= f) := by
  rcases r with e | a
  · trivial
  · exact hf a rfl

theorem calls_ite {c : Prop} [Decidable c] {h h' : Handler α} (hh : c → Calls P h)
    (hh' : ¬ c → Calls P h') : Calls P (if c then h else h') := by
  split
  · rename_i hc
    exact hh hc
  · rename_i hc
    exact hh' hc

end

/-! ## Effects -/

inductive Effect where
  | reads
  | writes
  | purges         -- messages are gone for good
  | sends
  | files
deriving DecidableEq, Repr

def effectOf : Operation → Effect
  | .fetch _ _ items _ => if marksSeen items then .writes else .reads
  | .listFolders _ | .listFoldersWithStatus _ | .status _ | .select _ _ | .search _ _
  | .threadRelated _ _ | .fetchBody _ _ _ _ => .reads
  | .storeFlags _ _ _ _ _ | .moveMessages _ _ _ _ | .appendMessage _ _ _ _ _
  | .deleteMessage _ _ _ _ | .createFolder _ | .renameFolder _ _ => .writes
  | .expunge _ | .deleteFolder _ => .purges

def ToolOp.effect : ToolOp → Effect
  | .imap op => effectOf op
  | .smtpSend _ _ => .sends
  | .readSandboxedFile _ _ | .resolveDestDir _ | .writeAttachment _ _ _ | .exportToken => .files

def READING : List Effect := [.reads, .files]

def WRITING : List Effect := [.reads, .files, .writes]

/-- The effects that a tool needs. -/
def effects : ToolName → List Effect
  | .listFolders | .search | .searchAdvanced | .fetchMessage | .fetchMessageHtml
  | .listAttachments | .downloadAttachment | .exportMessages | .listLabels | .useAccount
  | .listAccounts => READING
  | .markRead | .markUnread | .flag | .unflag | .addLabel | .removeLabel | .moveMessage
  | .createDraft | .createDraftHtml | .deleteMessage | .createFolder | .renameFolder => WRITING
  | .sendEmail | .forward => .sends :: WRITING
  | .expunge | .deleteFolder => .purges :: READING

/-- What the folder guard says about a call. -/
def Account.permits (account : Account) : ToolOp → Prop
  | .imap (.expunge folder) =>
      account.folderGuard.checkExpunge account.names folder = .ok ()
  | .imap (.deleteFolder folder) =>
      account.folderGuard.checkExpunge account.names folder = .ok () ∧
        account.folderGuard.checkProtected account.names folder "delete" = .ok ()
  | _ => True

/-- A call that needs no more than some effects, and is permitted. -/
def Stays (account : Account) (allowed : List Effect) (op : ToolOp) : Prop :=
  op.effect ∈ allowed ∧ account.permits op

theorem permits_of_effect {account : Account} {op : ToolOp} (h : op.effect ≠ .purges) :
    account.permits op := by
  rcases op with op | _
  · cases op <;> first | exact trivial | exact absurd rfl h
  all_goals trivial

theorem stays_reading {account : Account} {op : ToolOp} (h : op.effect ∈ READING) :
    Stays account READING op := by
  refine ⟨h, permits_of_effect ?_⟩
  intro hpurges
  rw [hpurges] at h
  simp [READING] at h

theorem stays_writing {account : Account} {op : ToolOp} (h : op.effect ∈ WRITING) :
    Stays account WRITING op := by
  refine ⟨h, permits_of_effect ?_⟩
  intro hpurges
  rw [hpurges] at h
  simp [WRITING] at h

theorem Stays.mono {account : Account} {allowed more : List Effect} {op : ToolOp}
    (h : Stays account allowed op) (hsub : allowed ⊆ more) : Stays account more op :=
  ⟨hsub h.1, h.2⟩

theorem calls_mono {α : Type} {account : Account} {allowed more : List Effect} {h : Handler α}
    (hh : Calls (Stays account allowed) h) (hsub : allowed ⊆ more) :
    Calls (Stays account more) h :=
  Tree.Within.mono hh fun _ hop => hop.mono hsub

/-- Every FETCH of a handler peeks. -/
theorem marksSeen_buildFetchItems (spec : FetchSpec) :
    marksSeen (buildFetchItems spec) = false := by
  rcases spec with ⟨_ | _, _ | _, _ | _, _ | _⟩ <;> decide +kernel

section

variable {account : Account}

theorem stays_fetch (folder : String) (uids : List Uid) (spec : FetchSpec)
    (expected : Option Nat) : Stays account READING (.imap (fetch folder uids spec expected)) := by
  apply stays_reading
  simp [fetch, ToolOp.effect, effectOf, marksSeen_buildFetchItems, READING]

theorem stays_fetchBody (folder : String) (uid : Uid) (expected : Option Nat) (limit : Nat) :
    Stays account READING (.imap (.fetchBody folder uid expected limit)) :=
  stays_reading (by simp [ToolOp.effect, effectOf, READING])

/-! ## Reading handlers -/

theorem calls_fetchSingleByUid (folder : String) (uid : Uid) (spec : FetchSpec)
    (expected : Option Nat) :
    Calls (Stays account READING) (fetchSingleByUid folder uid spec expected) := by
  refine calls_bind (calls_imap (stays_fetch folder [uid] spec expected)) ?_
  rintro ⟨messages, uidValidity⟩
  rcases messages with _ | ⟨msg, rest⟩
  · exact calls_throw _
  · exact calls_pure _

theorem calls_handleListLabels (input : ListLabelsInput) :
    Calls (Stays account READING) (handleListLabels input) := by
  refine calls_bind (calls_check _) fun _ => ?_
  refine calls_bind (calls_fetchSingleByUid _ _ _ _) ?_
  rintro ⟨msg, uidValidity⟩
  exact calls_pure _

theorem calls_handleFetchMessage (input : FetchMessageInput) :
    Calls (Stays account READING) (handleFetchMessage account input) := by
  refine calls_bind (calls_check _) fun _ => ?_
  refine calls_bind (calls_check _) fun wanted => ?_
  refine calls_bind (calls_imap (stays_fetchBody _ _ _ _)) fun raw => ?_
  refine calls_bind (calls_check _) ?_
  rintro ⟨content, selected⟩
  exact calls_pure _

theorem calls_handleListAttachments (input : ListAttachmentsInput) :
    Calls (Stays account READING) (handleListAttachments input) := by
  refine calls_bind (calls_check _) fun _ => ?_
  refine calls_bind (calls_fetchSingleByUid _ _ _ _) ?_
  rintro ⟨msg, uidValidity⟩
  simp only
  split
  · exact calls_throw _
  · exact calls_pure _

theorem calls_handleDownloadAttachment (input : DownloadAttachmentInput) :
    Calls (Stays account READING) (handleDownloadAttachment account input) := by
  refine calls_bind (calls_check _) fun _ => ?_
  refine calls_ite (fun _ => calls_throw _) fun _ => ?_
  refine calls_bind (calls_await (stays_reading (by simp [ToolOp.effect, READING]))) fun dest => ?_
  refine calls_bind (calls_imap (stays_fetchBody _ _ _ _)) fun raw => ?_
  refine calls_bind (calls_check _) fun parts => ?_
  split
  · exact calls_throw _
  · refine calls_bind ?_ fun path => ?_
    · exact calls_await (stays_reading (by simp [ToolOp.effect, READING]))
    refine calls_bind (calls_attempt (stays_fetch _ _ _ _)) fun _ => ?_
    exact calls_pure _

theorem calls_previewEach (folder : String) (expected : Option Nat) (maxBytes left : Nat)
    (entries : List SearchResultEntry) :
    Calls (Stays account READING) (previewEach account folder expected maxBytes left entries) := by
  induction entries generalizing left with
  | nil =>
      rw [previewEach]
      exact calls_pure _
  | cons entry rest ih =>
      rcases left with _ | left
      · exact calls_pure _
      · rw [previewEach]
        refine calls_bind ?_ fun preview => ?_
        · refine calls_bind (calls_attempt (stays_fetchBody _ _ _ _)) ?_
          rintro (e | raw)
          · exact calls_pure _
          · simp only
            split
            · exact calls_pure _
            · exact calls_pure _
        · exact calls_bind (ih left) fun previewed => calls_pure _

theorem calls_searchPage (input : SearchInput) (uids : List Uid) (uidValidity : Option Nat) :
    Calls (Stays account READING) (searchPage account input uids uidValidity) := by
  refine calls_bind ?_ fun entries => calls_bind ?_ fun messages => calls_pure _
  · refine calls_ite (fun _ => calls_pure _) fun _ => ?_
    refine calls_bind (calls_imap (stays_fetch _ _ _ _)) ?_
    rintro ⟨fetched, _⟩
    exact calls_pure _
  · rw [attachBodyPreviews]
    split
    · exact calls_pure _
    · exact calls_previewEach _ _ _ _ _

theorem calls_handleSearch (input : SearchInput) :
    Calls (Stays account READING) (handleSearch account input) := by
  refine calls_bind (calls_check _) ?_
  rintro (target | query)
  · refine calls_bind ?_ ?_
    · refine calls_bind (calls_imap (stays_fetchBody _ _ _ _)) fun raw => ?_
      refine calls_bind (calls_check _) ?_
      rintro ⟨content, selected⟩
      exact calls_pure _
    · rintro ⟨own, ancestors⟩
      refine calls_bind (calls_imap (stays_reading (by simp [ToolOp.effect, effectOf, READING]))) ?_
      rintro ⟨related, uidValidity⟩
      exact calls_searchPage _ _ _
  · refine calls_bind (calls_imap (stays_reading (by simp [ToolOp.effect, effectOf, READING]))) ?_
    rintro ⟨uids, uidValidity⟩
    exact calls_searchPage _ _ _

theorem calls_fetchBodies (folder : String) (sizes : Export.Sizes) (limits : Export.FetchLimits)
    (uids : List Uid) (running : Nat) :
    Calls (Stays account READING) (fetchBodies folder sizes limits uids running) := by
  induction uids generalizing running with
  | nil => exact calls_pure _
  | cons uid rest ih =>
      rw [fetchBodies]
      split
      · exact calls_bind (ih running) fun outcomes => calls_pure _
      · refine calls_bind (calls_imap (stays_fetchBody _ _ _ _)) fun body => ?_
        refine calls_ite (fun _ => calls_throw _) fun _ => ?_
        exact calls_bind (ih _) fun outcomes => calls_pure _

theorem calls_writeExport (plan : Export.RunPlan String) (complete : Bool)
    (bodies : List ContentParse.Bytes) (succeeded : List Export.ExportedUid)
    (failed : List Export.FailedUid) :
    Calls (Stays account READING) (writeExport plan complete bodies succeeded failed) := by
  refine calls_ite (fun _ => calls_throw _) fun _ => ?_
  refine calls_ite (fun _ => calls_pure _) fun _ => ?_
  refine calls_bind (calls_await (stays_reading (by simp [ToolOp.effect, READING]))) fun token => ?_
  refine calls_bind (calls_await (stays_reading (by simp [ToolOp.effect, READING]))) fun path => ?_
  exact calls_pure _

theorem calls_handleExportMessages (input : Export.ExportMessagesInput) :
    Calls (Stays account READING) (handleExportMessages account input) := by
  refine calls_bind (calls_check _) fun _ => ?_
  refine calls_bind (calls_check _) fun filenamePrefix => ?_
  refine calls_bind (calls_check _) fun uids => ?_
  refine calls_bind (calls_await (stays_reading (by simp [ToolOp.effect, READING]))) fun dest => ?_
  refine calls_bind ?_ fun sizes => ?_
  · refine calls_bind (calls_imap (stays_fetch _ _ _ _)) ?_
    rintro ⟨messages, uidValidity⟩
    exact calls_ite (fun _ => calls_throw _) fun _ =>
      calls_ite (fun _ => calls_throw _) fun _ => calls_pure _
  · refine calls_ite (fun _ => calls_throw _) fun _ => ?_
    refine calls_bind (calls_fetchBodies _ _ _ _ _) fun outcomes => ?_
    split
    · exact calls_throw _
    · exact calls_writeExport _ _ _ _ _

/-! ## Writing handlers -/

theorem calls_handleFlagOp (input : FlagInput) (flags : List Flag) (action : FlagAction) :
    Calls (Stays account WRITING) (handleFlagOp input flags action) := by
  refine calls_bind (calls_check _) fun _ => ?_
  refine calls_bind (calls_imap (stays_writing (by simp [ToolOp.effect, effectOf, WRITING]))) ?_
  rintro ⟨updated, uidValidity⟩
  exact calls_pure _

theorem calls_handleLabelOp (input : LabelInput) (action : FlagAction) :
    Calls (Stays account WRITING) (handleLabelOp input action) := by
  refine calls_bind (calls_check _) fun _ => ?_
  refine calls_bind (calls_check _) fun _ => ?_
  refine calls_bind (calls_imap (stays_writing (by simp [ToolOp.effect, effectOf, WRITING]))) ?_
  rintro ⟨updated, uidValidity⟩
  exact calls_pure _

theorem calls_handleMoveMessage (input : MoveMessageInput) :
    Calls (Stays account WRITING) (handleMoveMessage input) := by
  refine calls_bind (calls_check _) fun _ => ?_
  refine calls_bind (calls_check _) fun _ => ?_
  refine calls_bind (calls_imap (stays_writing (by simp [ToolOp.effect, effectOf, WRITING]))) ?_
  exact fun outcome => calls_pure _

theorem calls_handleDeleteMessage (input : DeleteMessageInput) :
    Calls (Stays account WRITING) (handleDeleteMessage account input) := by
  refine calls_bind (calls_check _) fun _ => ?_
  refine calls_bind (calls_check _) fun _ => ?_
  refine calls_bind (calls_imap (stays_writing (by simp [ToolOp.effect, effectOf, WRITING]))) ?_
  rintro ⟨result, uidValidity⟩
  exact calls_pure _

theorem calls_handleCreateFolder (input : CreateFolderInput) :
    Calls (Stays account WRITING) (handleCreateFolder account input) := by
  refine calls_bind (calls_check _) fun _ => ?_
  refine calls_bind (calls_check _) fun _ => ?_
  refine calls_bind (calls_imap (stays_writing (by simp [ToolOp.effect, effectOf, WRITING]))) ?_
  exact fun _ => calls_pure _

theorem calls_handleRenameFolder (input : RenameFolderInput) :
    Calls (Stays account WRITING) (handleRenameFolder account input) := by
  refine calls_bind (calls_check _) fun _ => ?_
  refine calls_bind (calls_check _) fun _ => ?_
  refine calls_bind (calls_check _) fun _ => ?_
  refine calls_bind (calls_imap (stays_writing (by simp [ToolOp.effect, effectOf, WRITING]))) ?_
  exact fun _ => calls_pure _

/-! ## Composing handlers -/

theorem calls_readEach (total : Nat) (atts : List AttachmentInput) :
    Calls (Stays account READING) (readEach account total atts) := by
  induction atts generalizing total with
  | nil => exact calls_pure _
  | cons att rest ih =>
      rw [readEach]
      refine calls_bind (calls_await (stays_reading (by simp [ToolOp.effect, READING]))) ?_
      intro bytes
      exact calls_bind (ih _) fun reads => calls_pure _

theorem calls_buildMessage (input : ComposeInput) (includeBcc : Bool) :
    Calls (Stays account READING) (buildMessage account input includeBcc) := by
  refine calls_bind ?_ fun builder => calls_bind ?_ fun reads => calls_check _
  · rw [threadedBuilder]
    split
    · exact calls_pure _
    · exact calls_bind (calls_imap (stays_fetchBody _ _ _ _)) fun raw => calls_check _
  · rw [readAttachments]
    split
    · exact calls_pure _
    · exact calls_readEach _ _

theorem calls_appendMessage (folder : String) (raw : ContentParse.Bytes) (flags : List Flag)
    (keywords : List String) :
    Stays account WRITING (.imap (appendMessage account folder raw flags keywords)) :=
  stays_writing (by simp [appendMessage, ToolOp.effect, effectOf, WRITING])

theorem reading_subset_writing : READING ⊆ WRITING := by simp [READING, WRITING]

theorem calls_handleCreateDraft (input : ComposeInput) :
    Calls (Stays account WRITING) (handleCreateDraft account input) := by
  refine calls_bind (calls_check _) fun _ => ?_
  refine calls_bind (calls_mono (calls_buildMessage _ _) reading_subset_writing) fun built => ?_
  refine calls_bind (calls_check _) fun _ => ?_
  refine calls_bind (calls_imap (calls_appendMessage _ _ _ _)) ?_
  exact fun uid => calls_pure _

theorem calls_appendSentCopy (raw : ContentParse.Bytes) :
    Calls (Stays account WRITING) (appendSentCopy account raw) := by
  refine calls_ite (fun _ => ?_) fun _ => calls_pure _
  exact calls_bind (calls_attempt (calls_appendMessage _ _ _ _)) fun answer => calls_pure _

theorem stays_smtpSend (envelope : SendEnvelope) (raw : ContentParse.Bytes) :
    Stays account (.sends :: WRITING) (.smtpSend envelope raw) :=
  ⟨by simp [ToolOp.effect], trivial⟩

theorem calls_handleSendEmail (input : ComposeInput) :
    Calls (Stays account (.sends :: WRITING)) (handleSendEmail account input) := by
  refine calls_bind (calls_check _) fun _ => ?_
  refine calls_ite (fun _ => ?_) fun _ => calls_throw _
  refine calls_bind (calls_mono (calls_buildMessage _ _) ?_) fun built => ?_
  · simp [READING, WRITING]
  refine calls_bind (calls_await (stays_smtpSend _ _)) fun status => ?_
  refine calls_bind (calls_mono (calls_appendSentCopy _) (by simp)) fun sentCopy => ?_
  exact calls_pure _

theorem calls_handleForward (input : Compose.ForwardInput) :
    Calls (Stays account (.sends :: WRITING)) (handleForward account input) := by
  refine calls_bind (calls_check _) fun commentBody => ?_
  refine calls_ite (fun _ => ?_) fun _ => calls_throw _
  refine calls_bind (calls_imap ((stays_fetchBody _ _ _ _).mono ?_)) fun original => ?_
  · simp [READING, WRITING]
  refine calls_bind (calls_check _) fun _ => ?_
  refine calls_bind (calls_check _) fun raw => ?_
  refine calls_bind (calls_await (stays_smtpSend _ _)) fun status => ?_
  refine calls_bind (calls_mono (calls_appendSentCopy _) (by simp)) fun sentCopy => ?_
  exact calls_pure _

/-! ## Purging handlers -/

theorem calls_handleExpunge (input : ExpungeInput) :
    Calls (Stays account (.purges :: READING)) (handleExpunge account input) := by
  refine calls_bind (calls_check _) fun _ => ?_
  refine calls_check_bind fun _ hguard => ?_
  refine calls_bind (calls_imap ⟨by simp [ToolOp.effect, effectOf], ?_⟩) ?_
  · exact ProtectedFolders.liftGuard_eq_ok hguard
  · rintro ⟨deletedUids, expungedCount⟩
    exact calls_pure _

theorem calls_handleDeleteFolder (input : DeleteFolderInput) :
    Calls (Stays account (.purges :: READING)) (handleDeleteFolder account input) := by
  refine calls_bind (calls_check _) fun _ => ?_
  refine calls_check_bind fun _ hprotected => ?_
  refine calls_check_bind fun _ hexpunge => ?_
  refine calls_bind (calls_imap ?_) fun messages => ?_
  · exact (stays_reading (by simp [ToolOp.effect, effectOf, READING])).mono (by simp)
  refine calls_bind (calls_imap ⟨by simp [ToolOp.effect, effectOf], ?_⟩) fun _ => ?_
  · exact ⟨ProtectedFolders.liftGuard_eq_ok hexpunge, ProtectedFolders.liftGuard_eq_ok hprotected⟩
  · exact calls_pure _

/-! ## Every handler -/

theorem calls_arm {ι α : Type} {P : ToolOp → Prop} (decode : JsonMap → Option ι)
    {handle : ι → Handler α} (h : ∀ input, Calls P (handle input)) (args : JsonMap) :
    Calls P (arm decode handle args) := by
  refine calls_bind ?_ fun input => calls_bind (h input) fun _ => calls_pure _
  rw [parseArgs]
  split
  · exact calls_pure _
  · exact calls_throw _

/-- A handler makes the calls of its tool and no others. -/
theorem calls_dispatchTool (tool : ToolName) (args : JsonMap) :
    Calls (Stays account (effects tool)) (dispatchTool account tool args) := by
  cases tool with
  | listFolders =>
      refine calls_bind (calls_imap (stays_reading ?_)) fun _ => calls_pure _
      simp [ToolOp.effect, effectOf, READING]
  | search => exact calls_arm _ calls_handleSearch _
  | searchAdvanced => exact calls_arm _ calls_handleSearch _
  | fetchMessage => exact calls_arm _ calls_handleFetchMessage _
  | fetchMessageHtml => exact calls_arm _ calls_handleFetchMessage _
  | listAttachments => exact calls_arm _ calls_handleListAttachments _
  | downloadAttachment => exact calls_arm _ calls_handleDownloadAttachment _
  | exportMessages => exact calls_arm _ calls_handleExportMessages _
  | markRead => exact calls_arm _ (fun _ => calls_handleFlagOp _ _ _) _
  | markUnread => exact calls_arm _ (fun _ => calls_handleFlagOp _ _ _) _
  | flag => exact calls_arm _ (fun _ => calls_handleFlagOp _ _ _) _
  | unflag => exact calls_arm _ (fun _ => calls_handleFlagOp _ _ _) _
  | addLabel => exact calls_arm _ (fun _ => calls_handleLabelOp _ _) _
  | removeLabel => exact calls_arm _ (fun _ => calls_handleLabelOp _ _) _
  | listLabels => exact calls_arm _ calls_handleListLabels _
  | moveMessage => exact calls_arm _ calls_handleMoveMessage _
  | createDraft => exact calls_arm _ calls_handleCreateDraft _
  | createDraftHtml => exact calls_arm _ calls_handleCreateDraft _
  | sendEmail => exact calls_arm _ calls_handleSendEmail _
  | forward => exact calls_arm _ calls_handleForward _
  | deleteMessage => exact calls_arm _ calls_handleDeleteMessage _
  | expunge => exact calls_arm _ calls_handleExpunge _
  | createFolder => exact calls_arm _ calls_handleCreateFolder _
  | renameFolder => exact calls_arm _ calls_handleRenameFolder _
  | deleteFolder => exact calls_arm _ calls_handleDeleteFolder _
  | useAccount => exact calls_throw _
  | listAccounts => exact calls_throw _

end

/-! ## Mail that is sent -/

def isSend : ToolOp → Bool
  | .smtpSend _ _ => true
  | .imap _ | .readSandboxedFile _ _ | .resolveDestDir _ | .writeAttachment _ _ _
  | .exportToken => false

/-- How many mails a call of a tool may send. -/
def mailsOf : ToolName → Nat
  | .sendEmail | .forward => 1
  | _ => 0

/-- The mails that were accepted, with one more if this call brought it. -/
def noteAccepted (accepted : List (SendEnvelope × ContentParse.Bytes)) :
    (op : ToolOp) → Answer op → List (SendEnvelope × ContentParse.Bytes)
  | .smtpSend envelope raw, .ok _ => accepted ++ [(envelope, raw)]
  | _, _ => accepted

section

variable {account : Account} {α β : Type}

theorem isSend_of_stays {allowed : List Effect} (hno : .sends ∉ allowed) {op : ToolOp}
    (h : Stays account allowed op) : isSend op = false := by
  rcases op with op | _
  · rfl
  · exact absurd h.1 hno
  all_goals rfl

theorem quiet_of_calls {allowed : List Effect} {h : Handler α}
    (hh : Calls (Stays account allowed) h) (hno : .sends ∉ allowed) :
    Calls (fun op => isSend op = false) h :=
  Tree.Within.mono hh fun _ hop => isSend_of_stays hno hop

theorem noteAccepted_quiet (accepted : List (SendEnvelope × ContentParse.Bytes)) (op : ToolOp)
    (answer : Answer op) (h : isSend op = false) : noteAccepted accepted op answer = accepted := by
  cases op with
  | smtpSend envelope raw => cases h
  | _ => rfl

/-- A step that sends nothing, and then the rest. -/
theorem atMost_quiet_bind {n : Nat} {h : Handler α} {f : α → Handler β}
    (hh : Calls (fun op => isSend op = false) h) (hf : ∀ a, (f a).run.AtMost isSend n) :
    (h >>= f).run.AtMost isSend n := by
  refine (Tree.atMost_bind (Tree.atMost_of_within hh) ?_ : Tree.AtMost isSend (0 + n) _).mono
    (Nat.zero_add n).le
  rintro (e | a)
  · trivial
  · exact hf a

/-- A step that sends, and then a rest that does not. -/
theorem atMost_send_bind {op : ToolOp} {f : op.Returns → Handler β}
    (hf : ∀ a, Calls (fun op => isSend op = false) (f a)) :
    (await op >>= f).run.AtMost isSend 1 := by
  refine (Tree.atMost_bind ?_ ?_ : Tree.AtMost isSend (1 + 0) _)
  · exact ⟨Bool.toNat_le _, fun _ => trivial⟩
  · rintro (e | a)
    · trivial
    · exact Tree.atMost_of_within (hf a)

theorem quiet_buildMessage (input : ComposeInput) (includeBcc : Bool) :
    Calls (fun op => isSend op = false) (buildMessage account input includeBcc) :=
  quiet_of_calls (calls_buildMessage input includeBcc) (by simp [READING])

theorem quiet_appendSentCopy (raw : ContentParse.Bytes) :
    Calls (fun op => isSend op = false) (appendSentCopy account raw) :=
  quiet_of_calls (calls_appendSentCopy raw) (by simp [WRITING])

theorem atMost_handleSendEmail (input : ComposeInput) :
    (handleSendEmail account input).run.AtMost isSend 1 := by
  refine atMost_quiet_bind (calls_check _) fun _ => ?_
  split
  · refine atMost_quiet_bind (quiet_buildMessage _ _) fun built => atMost_send_bind fun _ => ?_
    exact calls_bind (quiet_appendSentCopy _) fun sentCopy => calls_pure _
  · trivial

theorem atMost_handleForward (input : Compose.ForwardInput) :
    (handleForward account input).run.AtMost isSend 1 := by
  refine atMost_quiet_bind (calls_check _) fun commentBody => ?_
  split
  · refine atMost_quiet_bind (calls_imap rfl) fun original => ?_
    refine atMost_quiet_bind (calls_check _) fun _ => ?_
    refine atMost_quiet_bind (calls_check _) fun raw => atMost_send_bind fun _ => ?_
    exact calls_bind (quiet_appendSentCopy _) fun sentCopy => calls_pure _
  · trivial

theorem atMost_arm {ι : Type} {n : Nat} (decode : JsonMap → Option ι) {handle : ι → Handler α}
    (h : ∀ input, (handle input).run.AtMost isSend n) (args : JsonMap) :
    (arm decode handle args).run.AtMost isSend n := by
  refine atMost_quiet_bind ?_ fun input => ?_
  · rw [parseArgs]
    split
    · exact calls_pure _
    · exact calls_throw _
  · refine (Tree.atMost_bind (h input) ?_ : Tree.AtMost isSend (n + 0) _)
    rintro (e | a)
    · trivial
    · trivial

/-- A handler sends at most the mails of its tool. -/
theorem atMost_dispatchTool (tool : ToolName) (args : JsonMap) :
    (dispatchTool account tool args).run.AtMost isSend (mailsOf tool) := by
  by_cases hsends : .sends ∈ effects tool
  · cases tool with
    | sendEmail => exact atMost_arm _ atMost_handleSendEmail _
    | forward => exact atMost_arm _ atMost_handleForward _
    | _ => simp [effects, READING, WRITING] at hsends
  · exact Tree.atMost_of_within (quiet_of_calls (calls_dispatchTool tool args) hsends)

/-! ### What the caller is told -/

/-- A step that sends nothing: an error ends the handler with what was accepted so far. -/
theorem ends_quiet_bind {Q : List (SendEnvelope × ContentParse.Bytes) → Except RimapError β → Prop}
    {accepted : List (SendEnvelope × ContentParse.Bytes)} {h : Handler α} {f : α → Handler β}
    (hh : Calls (fun op => isSend op = false) h) (herror : ∀ e, Q accepted (.error e))
    (hf : ∀ a, (f a).run.Ends noteAccepted Q accepted) :
    (h >>= f).run.Ends noteAccepted Q accepted := by
  refine Tree.ends_bind.mpr ((Tree.ends_of_within hh noteAccepted_quiet).mono ?_)
  rintro _ (e | a) rfl
  · exact herror e
  · exact hf a

theorem ends_send_bind {Q : List (SendEnvelope × ContentParse.Bytes) → Except RimapError β → Prop}
    {accepted : List (SendEnvelope × ContentParse.Bytes)} {envelope : SendEnvelope}
    {raw : ContentParse.Bytes} {f : String → Handler β} (herror : ∀ e, Q accepted (.error e))
    (hf : ∀ status, (f status).run.Ends noteAccepted Q (accepted ++ [(envelope, raw)])) :
    (await (.smtpSend envelope raw) >>= f).run.Ends noteAccepted Q accepted := by
  rintro (e | status)
  · exact herror e
  · exact hf status

/-- A copy that cannot be kept is no error. -/
theorem ends_appendSentCopy (raw : ContentParse.Bytes)
    (accepted : List (SendEnvelope × ContentParse.Bytes)) :
    (appendSentCopy account raw).run.Ends noteAccepted
      (fun accepted' r => accepted' = accepted ∧ r.isOk = true) accepted := by
  rw [appendSentCopy]
  split
  · intro answer
    exact ⟨rfl, rfl⟩
  · exact ⟨rfl, rfl⟩

/-- Success means that this one mail was accepted, and an error that none was. -/
def Reported (envelope : SendEnvelope)
    (accepted : List (SendEnvelope × ContentParse.Bytes)) : Except RimapError α → Prop
  | .ok _ => ∃ raw, accepted = [(envelope, raw)]
  | .error _ => accepted = []

theorem ends_afterSend {envelope : SendEnvelope} (raw : ContentParse.Bytes) {f : SentCopyInfo → α} :
    (await (.smtpSend envelope raw) >>= fun _ => appendSentCopy account raw >>= fun sentCopy =>
      (pure (f sentCopy) : Handler α)).run.Ends noteAccepted (Reported envelope) [] := by
  refine ends_send_bind (fun _ => rfl) fun status => ?_
  refine Tree.ends_bind.mpr ((ends_appendSentCopy raw _).mono ?_)
  rintro _ (e | sentCopy) ⟨rfl, hok⟩
  · cases hok
  · exact ⟨raw, rfl⟩

theorem ends_handleSendEmail (input : ComposeInput) :
    (handleSendEmail account input).run.Ends noteAccepted
      (Reported (buildEnvelope account.username input.recipients input.cc input.bcc)) [] := by
  refine ends_quiet_bind (calls_check _) (fun _ => rfl) fun _ => ?_
  split
  · refine ends_quiet_bind (quiet_buildMessage _ _) (fun _ => rfl) fun built => ?_
    exact ends_afterSend built.raw
  · rfl

theorem ends_handleForward (input : Compose.ForwardInput) :
    (handleForward account input).run.Ends noteAccepted
      (Reported (buildEnvelope account.username input.recipients input.cc input.bcc)) [] := by
  refine ends_quiet_bind (calls_check _) (fun _ => rfl) fun commentBody => ?_
  split
  · refine ends_quiet_bind (calls_imap rfl) (fun _ => rfl) fun original => ?_
    refine ends_quiet_bind (calls_check _) (fun _ => rfl) fun _ => ?_
    refine ends_quiet_bind (calls_check _) (fun _ => rfl) fun raw => ?_
    exact ends_afterSend raw
  · rfl

/-- **A mail that went out is reported as sent.**  However the calls of `send_email` and
    `forward` are answered, they end in success exactly when the SMTP client reported a
    mail as accepted, and then it was that one, for all recipients; what goes wrong
    afterwards is no error, so nothing invites a second attempt. -/
theorem delivery_reported (account : Account) :
    (∀ input : ComposeInput, (handleSendEmail account input).run.Ends noteAccepted
      (Reported (buildEnvelope account.username input.recipients input.cc input.bcc)) []) ∧
    ∀ input : Compose.ForwardInput, (handleForward account input).run.Ends noteAccepted
      (Reported (buildEnvelope account.username input.recipients input.cc input.bcc)) [] :=
  ⟨ends_handleSendEmail, ends_handleForward⟩

end

end RustyImap.ToolHandlers
