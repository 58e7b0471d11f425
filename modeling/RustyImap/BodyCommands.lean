import RustyImap.MailServer
import RustyImap.SessionDispatch

/-!
# The commands of the operations, by what they do to the mail

The bodies of `connection/dispatch.rs` over a server for every command: one that is
retried sends only commands that read; with MOVE, no body but those of EXPUNGE and
DELETE sends a command that loses mail; and those two lose what they say they lose,
in the mailbox they name.
-/

namespace RustyImap.BodyCommands

open RustyImap.ImapOps
open RustyImap.MailboxTree (Sends exec exec_keeps)
open RustyImap.MailServer
open RustyImap.MailStore (mailboxName)
open RustyImap.SessionDispatch (Operation)

/-! ## The parts of the bodies -/

theorem sends_validateServerFolderName {P : Command → Prop} (name : String) :
    Sends P (validateServerFolderName name) := by
  unfold validateServerFolderName
  split
  · exact .done
  · exact .done

theorem sends_validateFolderName {P : Command → Prop} (name : String) :
    Sends P (validateFolderName name) := by
  unfold validateFolderName
  split
  · exact .done
  · exact .done

theorem sends_collect {P : Command → Prop} {cmd : Command} (h : P cmd) : Sends P (collect cmd) :=
  .stream h fun _ => .done

theorem sends_select {P : Command → Prop} {folder : String} {readOnly : Bool}
    (h : P (.select folder readOnly)) : Sends P (select folder readOnly) :=
  .bind (sends_validateServerFolderName folder) fun _ => .send h

theorem sends_status {P : Command → Prop} {folder : String} (h : P (.status folder)) :
    Sends P (status folder) :=
  .bind (sends_validateServerFolderName folder) fun _ => .send h

theorem sends_checkUidvalidity {P : Command → Prop} (folder : String)
    (expected observed : Option Nat) : Sends P (checkUidvalidity folder expected observed) := by
  unfold checkUidvalidity
  split
  · split
    · exact .done
    · exact .done
  · exact .done

theorem sends_requireUidvalidity {P : Command → Prop} (folder : String)
    (expected observed : Option Nat) : Sends P (requireUidvalidity folder expected observed) := by
  unfold requireUidvalidity
  split
  · exact .done
  · split
    · exact .done
    · exact .done
  · exact .done

theorem sends_validateKeyword {P : Command → Prop} (keyword : String) :
    Sends P (validateKeyword keyword) := by
  unfold validateKeyword
  split
  · exact .done
  · split
    · exact .done
    · split
      · exact .done
      · exact .done

theorem sends_search {P : Command → Prop} {folder : String} {key : Except ImapError String}
    (hselect : P (.select folder true)) (hsearch : ∀ key, P (.uidSearch key)) :
    Sends P (search folder key) := by
  refine .bind (sends_select hselect) fun _ => .bind .done fun key => ?_
  exact .bind (.send (hsearch key)) fun _ => .done

theorem sends_fetch {P : Command → Prop} {folder : String} {uids : List Uid} {items : String}
    {expected : Option Nat} (hselect : P (.select folder true))
    (hfetch : P (.uidFetch uids items)) :
    Sends P (fetch folder uids items expected) := by
  refine .bind (sends_select hselect) fun _ => ?_
  refine .bind (sends_checkUidvalidity _ _ _) fun _ => ?_
  split
  · exact .done
  · exact .bind (sends_collect hfetch) fun _ => .done

theorem sends_checkFlags {P : Command → Prop} (flags : List Flag) :
    Sends P (checkFlags flags) := by
  induction flags with
  | nil => exact .done
  | cons flag rest ih =>
      cases flag with
      | keyword name => exact .bind (sends_validateKeyword name) fun _ => ih
      | _ => exact ih

theorem sends_checkKeywords {P : Command → Prop} (keywords : List String) :
    Sends P (checkKeywords keywords) := by
  induction keywords with
  | nil => exact .done
  | cons keyword rest ih => exact .bind (sends_validateKeyword keyword) fun _ => ih

theorem sends_store {P : Command → Prop} {uids : List Uid} {flags : List Flag}
    {action : FlagAction} (h : P (.uidStore uids flags action)) :
    Sends P (store uids flags action) := by
  unfold store
  split
  · exact .done
  · split
    · exact .done
    · refine .bind (sends_checkFlags flags) fun _ => ?_
      exact .bind (sends_collect h) fun _ => .done

/-! ## Operations that read -/

/-- The items of a FETCH peek; the other operations fetch with items of their own. -/
def peeks : Operation → Bool
  | .fetch _ _ items _ => !marksSeen items
  | _ => true

theorem reads_size (uid : Uid) : reads (.uidFetch [uid] "RFC822.SIZE") = true := by
  rw [reads, show marksSeen "RFC822.SIZE" = false by decide]
  rfl

theorem reads_body (uid : Uid) : reads (.uidFetch [uid] "BODY.PEEK[]") = true := by
  rw [reads, show marksSeen "BODY.PEEK[]" = false by decide]
  rfl

/-- What may be run again: commands that leave the mail as it is. -/
theorem sends_reads (caps : ServerCapabilities) {op : Operation}
    (hreadOnly : op.idempotency = .readOnly) (hpeeks : peeks op = true) :
    Sends (fun cmd => reads cmd = true) (op.body caps) := by
  cases op with
  | listFolders pattern =>
      refine .bind ?_ fun _ => .done
      exact .bind (sends_collect rfl) fun _ => .done
  | listFoldersWithStatus pattern =>
      refine .bind ?_ fun _ => .done
      refine .bind (.bind (sends_collect rfl) fun _ => .done) fun folders => ?_
      induction folders with
      | nil => exact .done
      | cons folder rest ih =>
          rw [statusOfEach]
          split
          · refine .bind (.bind (sends_status rfl) fun _ => .done) fun _ => ?_
            exact .bind ih fun _ => .done
          · exact .bind .done fun _ => .bind ih fun _ => .done
  | status folder => exact .bind (sends_status rfl) fun _ => .done
  | select folder readOnly => exact .bind (sends_select rfl) fun _ => .done
  | search folder key => exact .bind (sends_search rfl fun _ => rfl) fun _ => .done
  | threadRelated folder key =>
      refine .bind ?_ fun _ => .done
      refine .bind .done fun key => ?_
      rcases key with _ | key
      · exact .bind (sends_select rfl) fun _ => .done
      · exact sends_search rfl fun _ => rfl
  | fetch folder uids items uidvalidity => exact .bind (sends_fetch rfl hpeeks) fun _ => .done
  | fetchBody folder uid uidvalidity limit =>
      refine .bind (.bind ?_ fun size => .bind ?_ fun _ => ?_) fun _ => .done
      · refine .bind (sends_select rfl) fun _ => ?_
        refine .bind (sends_requireUidvalidity _ _ _) fun _ => ?_
        exact .bind (sends_collect (reads_size uid)) fun _ => .done
      · unfold preflightSizeCheck
        split
        · split
          · exact .done
          · exact .done
        · exact .done
      · refine .bind (sends_select rfl) fun _ => ?_
        refine .bind (sends_requireUidvalidity _ _ _) fun _ => ?_
        refine .bind (.stream (reads_body uid) fun _ => .done) fun messages => ?_
        split
        · exact .done
        · exact .done
  | storeFlags folder uids flags action uidvalidity => cases hreadOnly
  | moveMessages src dest uids uidvalidity => cases hreadOnly
  | appendMessage folder message flags keywords limit => cases hreadOnly
  | deleteMessage folder uid trash uidvalidity => cases hreadOnly
  | expunge folder => cases hreadOnly
  | createFolder name => cases hreadOnly
  | renameFolder oldName newName => cases hreadOnly
  | deleteFolder name => cases hreadOnly

/-! ## Operations that lose nothing -/

/-- A command after which every message is still in some mailbox. -/
def lossless : Command → Bool
  | .uidExpunge _ | .expunge | .delete _ => false
  | .list _ | .status _ | .select _ _ | .uidSearch _ | .uidFetch _ _ | .uidStore _ _ _
  | .uidCopy _ _ | .uidMove _ _ | .append _ _ _ _ | .create _ | .rename _ _ => true

theorem lossless_of_reads {cmd : Command} (h : reads cmd = true) : lossless cmd = true := by
  cases cmd with
  | uidExpunge uids => cases h
  | expunge => cases h
  | delete name => cases h
  | _ => rfl

theorem spares_of_lossless {γ : Type} {cmd : Command} (h : lossless cmd = true)
    (selected : Option String) :
    (spares selected cmd : String → MailStore.Message γ → Bool) = everything := by
  cases cmd with
  | uidExpunge uids => cases h
  | expunge => cases h
  | delete name => cases h
  | _ => rfl

/-- The session has MOVE, or is one whose capabilities are not known. -/
def hasNoFallback : ServerCapabilities → Bool
  | .known hasMove _ => hasMove
  | .unknown => true

theorem sends_guardSource {P : Command → Prop} {src : String} (h : P (.status src))
    (expected : Option Nat) : Sends P (guardSource src expected) := by
  unfold guardSource
  split
  · exact .done
  · refine .bind (sends_status h) fun status => ?_
    split
    · split
      · exact .done
      · exact .done
    · exact .done

theorem sends_moveMessages {caps : ServerCapabilities} (hcaps : hasNoFallback caps = true)
    (src dest : String) (uids : List Uid) (expected : Option Nat) :
    Sends (fun cmd => lossless cmd = true) (moveMessages caps src dest uids expected) := by
  refine .bind (sends_validateServerFolderName dest) fun _ => ?_
  split
  · exact .done
  · split
    · exact .done
    · rcases caps with ⟨_ | _, hasUidplus⟩ | _
      · cases hcaps
      · change Sends _ (guardSource src expected >>= _)
        refine .bind (sends_guardSource (by rfl) expected) fun sourceUidValidity => ?_
        change Sends _ (send (.uidMove uids dest) mapErr >>= _)
        exact .bind (.send rfl) fun _ => .done
      · exact .done

theorem sends_deleteMessage {caps : ServerCapabilities} (hcaps : hasNoFallback caps = true)
    (uid : Uid) (source trash : String) :
    Sends (fun cmd => lossless cmd = true) (deleteMessage caps uid source trash) := by
  refine .bind (sends_validateFolderName source) fun _ => ?_
  refine .bind (sends_validateFolderName trash) fun _ => ?_
  split
  · exact .bind (sends_store rfl) fun _ => .done
  · rcases caps with ⟨_ | _, hasUidplus⟩ | _
    · cases hcaps
    · change Sends _ (store [uid] [.deleted] .add >>= _)
      refine .bind (sends_store rfl) fun _ => ?_
      change Sends _ ((send (.uidMove [uid] trash) mapErr >>= _) >>= _)
      exact .bind (.bind (.send rfl) fun _ => .done) fun _ => .done
    · exact .done

theorem Sends.mono {α : Type} {P Q : Command → Prop} {p : Prog α} (h : Sends P p)
    (hPQ : ∀ cmd, P cmd → Q cmd) : Sends Q p := by
  induction h with
  | done => exact .done
  | command hcmd _ ih => exact .command (hPQ _ hcmd) ih
  | stream hcmd _ ih => exact .stream (hPQ _ hcmd) ih

def purges : Operation → Bool
  | .expunge _ | .deleteFolder _ => true
  | _ => false

theorem sends_lossless {caps : ServerCapabilities} (hcaps : hasNoFallback caps = true)
    {op : Operation} (hop : purges op = false) :
    Sends (fun cmd => lossless cmd = true) (op.body caps) := by
  by_cases hreadOnly : op.idempotency = .readOnly ∧ peeks op = true
  · exact Sends.mono (sends_reads caps hreadOnly.1 hreadOnly.2) fun _ => lossless_of_reads
  · cases op with
    | fetch folder uids items uidvalidity => exact .bind (sends_fetch rfl rfl) fun _ => .done
    | storeFlags folder uids flags action uidvalidity =>
        refine .bind (.bind (sends_select rfl) fun _ => ?_) fun _ => .done
        refine .bind (sends_checkUidvalidity _ _ _) fun _ => ?_
        exact .bind (sends_store rfl) fun _ => .done
    | moveMessages src dest uids uidvalidity =>
        refine .bind (.bind (sends_select rfl) fun _ => ?_) fun _ => .done
        exact sends_moveMessages hcaps _ _ _ _
    | appendMessage folder message flags keywords limit =>
        refine .bind ?_ fun _ => ?_
        · unfold checkAppendSize
          split
          · exact .done
          · exact .done
        · refine .bind (sends_checkFlags flags) fun _ => ?_
          refine .bind (sends_checkKeywords keywords) fun _ => ?_
          exact .bind (.send rfl) fun _ => .done
    | deleteMessage folder uid trash uidvalidity =>
        refine .bind (.bind (sends_select rfl) fun _ => ?_) fun _ => .done
        refine .bind (sends_checkUidvalidity _ _ _) fun _ => ?_
        exact .bind (sends_deleteMessage hcaps _ _ _) fun _ => .done
    | createFolder name =>
        exact .bind (sends_validateFolderName name) fun _ => .bind (.send rfl) fun _ => .done
    | renameFolder oldName newName =>
        refine .bind (sends_validateFolderName oldName) fun _ => ?_
        exact .bind (sends_validateFolderName newName) fun _ => .bind (.send rfl) fun _ => .done
    | expunge folder => cases hop
    | deleteFolder name => cases hop
    | _ => exact absurd ⟨rfl, rfl⟩ hreadOnly

/-! ## Over the server -/

section

variable {γ α : Type} {kind : Kind γ} {srv : Server γ}

theorem tree_of_sends_reads {p : Prog α} (h : Sends (fun cmd => reads cmd = true) p)
    (answers : List MailStore.Answer) : (exec (serve kind) p srv answers).tree = srv.tree :=
  exec_keeps (serve kind) (fun _ _ _ hsame hreads hserve => (serve_reads hreads hserve).trans hsame)
    h rfl answers

theorem keepsAll_of_sends_lossless {p : Prog α} (h : Sends (fun cmd => lossless cmd = true) p)
    (srv : Server γ) (answers : List MailStore.Answer) :
    KeepsAll srv.tree (exec (serve kind) p srv answers).tree := by
  have hstep : ∀ s cmd s', KeepsAll srv.tree s.tree → lossless cmd = true →
      serve kind s cmd = some s' → KeepsAll srv.tree s'.tree := by
    intro s cmd s' hkeeps hcmd hserve
    have hspared := serve_keepsPicked hserve
    rw [spares_of_lossless hcmd] at hspared
    exact hkeeps.trans hspared
  exact exec_keeps (serve kind) hstep h (keepsAll_refl srv.tree) answers

/-- One command and the rest, however it goes. -/
theorem exec_command {σ : Type} {serves : σ → Command → Option σ} {Q : σ → Prop} {s : σ}
    {cmd : Command} {onError : AsyncImapError → ImapError} {next : Reply → Prog α} (hs : Q s)
    (hserve : ∀ s', serves s cmd = some s' →
      Q s' ∧ ∀ reply rest, Q (exec serves (next reply) s' rest))
    (answers : List MailStore.Answer) :
    Q (exec serves (.command cmd onError next) s answers) := by
  rcases answers with _ | ⟨⟨reply, items⟩ | ⟨e, applied⟩, rest⟩
  · exact hs
  · rw [exec]
    split
    · rename_i s' hs'
      exact (hserve s' hs').2 reply rest
    · exact hs
  · rw [exec]
    split
    · rcases hs' : serves s cmd with _ | s'
      · exact hs
      · exact (hserve s' hs').1
    · exact hs

theorem exec_stream {σ : Type} {serves : σ → Command → Option σ} {Q : σ → Prop} {s : σ}
    {cmd : Command} {check : List Item → Item → Option ImapError} {next : List Item → Prog α}
    (hs : Q s)
    (hserve : ∀ s', serves s cmd = some s' →
      Q s' ∧ ∀ items rest, Q (exec serves (next items) s' rest))
    (answers : List MailStore.Answer) :
    Q (exec serves (.stream cmd check next) s answers) := by
  rcases answers with _ | ⟨⟨reply, items⟩ | ⟨e, applied⟩, rest⟩
  · exact hs
  · rw [exec]
    split
    · rename_i s' hs'
      exact (hserve s' hs').2 items rest
    · exact hs
  · rw [exec]
    split
    · rcases hs' : serves s cmd with _ | s'
      · exact hs
      · exact (hserve s' hs').1
    · exact hs

/-- A command that reads, before the rest. -/
theorem exec_reads {Q : Server γ → Prop} {t : MailboxTree.Hierarchy (MailStore.Message γ)}
    (hQ : ∀ s : Server γ, s.tree = t → Q s) {s : Server γ} (hs : s.tree = t) {cmd : Command}
    {onError : AsyncImapError → ImapError} {next : Reply → Prog α} (hreads : reads cmd = true)
    (hnext : ∀ s', serve kind s cmd = some s' → s'.tree = t →
      ∀ reply rest, Q (exec (serve kind) (next reply) s' rest)) (answers : List MailStore.Answer) :
    Q (exec (serve kind) (.command cmd onError next) s answers) := by
  refine exec_command (hQ s hs) ?_ answers
  intro s' hserve
  have htree : s'.tree = t := (serve_reads hreads hserve).trans hs
  exact ⟨hQ s' htree, hnext s' hserve htree⟩

/-- What EXPUNGE of one mailbox leaves. -/
def sparedByExpunge (folder : String) (name : String) (m : MailStore.Message γ) : Bool :=
  !(mailboxName folder == name && m.deleted)

theorem selected_of_select {folder : String} {readOnly : Bool} {srv' : Server γ}
    (h : serve kind srv (.select folder readOnly) = some srv') :
    srv'.selected = some (mailboxName folder) := by
  obtain ⟨box, -, rfl⟩ := Option.map_eq_some_iff.mp h
  rfl

theorem keepsPicked_refl (p : String → MailStore.Message γ → Bool)
    (t : MailboxTree.Hierarchy (MailStore.Message γ)) : KeepsPicked p t t :=
  (keepsAll_refl t).picked p

theorem keepsPicked_expunge (srv : Server γ) (caps : ServerCapabilities) (folder : String)
    (answers : List MailStore.Answer) :
    KeepsPicked (sparedByExpunge folder) srv.tree
      (exec (serve kind) ((Operation.expunge folder).body caps) srv answers).tree := by
  have hsame {s : Server γ} (h : s.tree = srv.tree) :
      KeepsPicked (sparedByExpunge folder) srv.tree s.tree := by
    rw [h]
    exact keepsPicked_refl _ _
  change KeepsPicked _ srv.tree (exec (serve kind) (expungeBody folder >>= _) srv answers).tree
  unfold expungeBody countDeleted validateFolderName select validateServerFolderName
  split
  · split
    · -- EXAMINE, SEARCH and SELECT read; then comes the EXPUNGE
      refine exec_reads (Q := fun s => KeepsPicked _ srv.tree s.tree) (fun _ => hsame) rfl rfl ?_ _
      intro examined _ hexamined reply rest
      refine exec_reads (Q := fun s => KeepsPicked _ srv.tree s.tree) (fun _ => hsame) hexamined
        rfl ?_ rest
      intro searched _ hsearched reply rest
      refine exec_reads (Q := fun s => KeepsPicked _ srv.tree s.tree) (fun _ => hsame) hsearched
        rfl ?_ rest
      intro selected hselect hselected reply rest
      have hspared : (spares selected.selected .expunge : String → MailStore.Message γ → Bool) =
          sparedByExpunge folder := by
        rw [selected_of_select hselect]
        rfl
      refine exec_stream (Q := fun s : Server γ => KeepsPicked _ srv.tree s.tree)
        (hsame hselected) ?_ rest
      intro expunged hexpunge
      have hkept := serve_keepsPicked hexpunge
      rw [hspared, hselected] at hkept
      exact ⟨hkept, fun _ _ => hkept⟩
    · exact hsame rfl
  · exact hsame rfl

/-- DELETE leaves what has another name. -/
theorem keepsPicked_deleteFolder (srv : Server γ) (caps : ServerCapabilities) (name : String)
    (answers : List MailStore.Answer) :
    KeepsPicked (fun other _ => !(other == mailboxName name)) srv.tree
      (exec (serve kind) ((Operation.deleteFolder name).body caps) srv answers).tree := by
  change KeepsPicked _ srv.tree (exec (serve kind) (deleteFolder name) srv answers).tree
  unfold deleteFolder validateFolderName
  split
  · refine exec_command (Q := fun s : Server γ => KeepsPicked _ srv.tree s.tree)
      (keepsPicked_refl _ _) ?_ answers
    intro srv' hserve
    exact ⟨serve_keepsPicked hserve, fun _ _ => serve_keepsPicked hserve⟩
  · exact keepsPicked_refl _ _

end

end RustyImap.BodyCommands
