import RustyImap.MailStore

/-!
# A failed delete

`delete_message` flags its message before it moves it to the Trash, the fallback of
`move_messages` copies first and flags then (`rimap-imap/src/ops/`).  A run that fails
in between leaves a message that is flagged `\Deleted` and has no copy, for whatever
expunges the folder next.
-/

namespace RustyImap.MailStore

open RustyImap.ImapOps

variable {γ : Type}

/-- A message of this UID and content is there, flagged `\Deleted`. -/
def FlaggedLike (messages : List (Message γ)) (m : Message γ) : Prop :=
  ∃ m' ∈ messages, m'.uid = m.uid ∧ m'.content = m.content ∧ m'.deleted = true

/-- A message that was to leave, and that was not flagged. -/
structure Target (op : Operation) (before : Store γ) (m : Message γ) : Prop where
  mem : m ∈ before.messages op.source
  listed : m.uid ∈ op.targets
  unflagged : ¬ FlaggedLike (before.messages op.source) m

/-- It is flagged in the source now, and the destination has nothing of its content. -/
structure ArmedFor (op : Operation) (before after : Store γ) (m : Message γ) : Prop
    extends Target op before m where
  flagged : FlaggedLike (after.messages op.source) m
  absent : m.content ∉ contents (after.messages op.destination)

def Armed (op : Operation) (before after : Store γ) : Prop := ∃ m, ArmedFor op before after m

section

variable {op : Operation} {before after : Store γ}

/-! ## What is not armed -/

theorem not_armed_of_mailboxes (h : after.mailboxes = before.mailboxes) :
    ¬ Armed op before after := by
  rintro ⟨m, harmed⟩
  apply harmed.unflagged
  have hmessages : after.messages op.source = before.messages op.source := by
    simp [Store.messages, h]
  rw [← hmessages]
  exact harmed.flagged

/-- No message of the batch is flagged in the source. -/
theorem not_armed_of_unflagged
    (h : ∀ m ∈ after.messages op.source, m.uid ∈ op.targets → m.deleted = false) :
    ¬ Armed op before after := by
  rintro ⟨m, harmed⟩
  obtain ⟨m', hmem, huid, -, hdeleted⟩ := harmed.flagged
  rw [h m' hmem (huid ▸ harmed.listed)] at hdeleted
  cases hdeleted

/-- The contents of the batch are at the destination. -/
theorem not_armed_of_arrived
    (h : ∀ m ∈ before.messages op.source, m.uid ∈ op.targets →
      m.content ∈ contents (after.messages op.destination)) : ¬ Armed op before after := by
  rintro ⟨m, harmed⟩
  exact harmed.absent (h m harmed.mem harmed.listed)

/-! ## The commands -/

variable {policy : UidPolicy} {st st' : Store γ} {box : Mailbox γ} {dest : String}

/-- The contents of the batch are in a mailbox that holds them. -/
def HoldsBatch (op : Operation) (before : Store γ) (box : Mailbox γ) : Prop :=
  ∀ m ∈ before.messages op.source, m.uid ∈ op.targets → m.content ∈ contents (box.listed op.targets)

theorem holdsBatch_self (h : before.messages op.source = box.messages) :
    HoldsBatch op before box := by
  intro m hmem hlisted
  rw [h] at hmem
  exact List.mem_map_of_mem (List.mem_filter.mpr ⟨hmem, by simpa using hlisted⟩)

theorem holdsBatch_store (h : before.messages op.source = box.messages) :
    HoldsBatch op before (box.store op.targets [.deleted] .add) := by
  intro m hmem hlisted
  have hcontents : contents ((box.store op.targets [.deleted] .add).listed op.targets) =
      contents (box.listed op.targets) :=
    contents_filter_store _ _ _ (fun uid => decide (uid ∈ op.targets)) box.messages
  rw [hcontents]
  exact holdsBatch_self h m hmem hlisted

theorem arrived_uidCopy (hdest : mailboxName dest = op.destination) (hat : st.At op.source box)
    (hbatch : HoldsBatch op before box)
    (hserve : serve policy st (.uidCopy op.targets dest) = some st') :
    ∀ m ∈ before.messages op.source, m.uid ∈ op.targets →
      m.content ∈ contents (st'.messages op.destination) := by
  intro m hmem hlisted
  obtain ⟨target, -, rfl⟩ := serve_uidCopy hat hserve
  rw [hdest, Store.messages_put_self, contents_receive]
  exact List.mem_append_right _ (hbatch m hmem hlisted)

theorem not_armed_uidMove (op : Operation) (hdest : mailboxName dest = op.destination)
    (hat : st.At op.source box) (hbatch : HoldsBatch op before box)
    (hserve : serve policy st (.uidMove op.targets dest) = some st') :
    ¬ Armed op before st' := by
  obtain ⟨target, -, rfl⟩ := serve_uidMove hat hserve
  apply not_armed_of_arrived
  intro m hmem hlisted
  rw [hdest, Store.messages_put_self, contents_receive]
  exact List.mem_append_right _ (hbatch m hmem hlisted)

theorem not_armed_expungeCommand {hasUidplus : Bool} (hat : st.At op.source box)
    (hserve : serve policy st (expungeCommand op.targets hasUidplus) = some st') :
    ¬ Armed op before st' := by
  rw [serve_expungeCommand hat] at hserve
  cases hserve
  apply not_armed_of_unflagged
  intro m hmem hlisted
  rw [Store.messages_put_self] at hmem
  have hkept := (List.mem_filter.mp hmem).2
  simpa [expungeScope, hlisted] using hkept

/-! ## A move -/

/-- The copies are there before the flags are. -/
theorem not_armed_fallback (op : Operation) {hasUidplus : Bool}
    (hdest : mailboxName dest = op.destination) (hat : st.At op.source box)
    (hbox : before.messages op.source = box.messages) :
    ∀ st₁, serve policy st (.uidCopy op.targets dest) = some st₁ → ¬ Armed op before st₁ ∧
      ∀ st₂, serve policy st₁ (.uidStore op.targets [.deleted] .add) = some st₂ →
        ¬ Armed op before st₂ ∧
        ∀ st₃, serve policy st₂ (expungeCommand op.targets hasUidplus) = some st₃ →
          ¬ Armed op before st₃ := by
  intro st₁ h₁
  have harrived := arrived_uidCopy hdest hat (holdsBatch_self hbox) h₁
  obtain ⟨box₁, hat₁⟩ : ∃ box₁, st₁.At op.source box₁ := by
    by_cases heq : op.source = op.destination
    · exact ⟨_, inPlace_uidCopy heq hdest hat h₁⟩
    · exact ⟨_, (apart_uidCopy heq hdest hat h₁).1⟩
  refine ⟨not_armed_of_arrived harrived, ?_⟩
  intro st₂ h₂
  refine ⟨?_, ?_⟩
  · apply not_armed_of_arrived
    intro m hmem hlisted
    rw [contents_uidStore hat₁ h₂]
    exact harrived m hmem hlisted
  · intro st₃ h₃
    rw [serve_uidStore hat₁] at h₂
    cases h₂
    exact not_armed_expungeCommand (hat₁.put _) h₃

theorem runs_move_not_armed {caps : ServerCapabilities} {src dest : String} {uids : List Uid}
    {uidvalidity : Option Nat} :
    Runs policy ((Operation.move src dest uids uidvalidity).body caps) before
      (fun after => ¬ Armed (.move src dest uids uidvalidity) before after)
      fun _ _ _ => True := by
  apply runs_bind.mpr
  apply runs_bind.mpr
  apply runs_select (not_armed_of_mailboxes rfl)
  intro box _ hbox
  refine ⟨not_armed_of_mailboxes rfl, fun _ => ?_⟩
  have hat : Store.At { before with selected := some (mailboxName src) } (mailboxName src) box :=
    ⟨rfl, hbox⟩
  have hsource := Store.messages_of_mailboxes hbox
  have hselected : ¬ Armed (.move src dest uids uidvalidity) before
      { before with selected := some (mailboxName src) } := not_armed_of_mailboxes rfl
  apply runs_mono (runs_moveMessages hselected _ _)
  · intro outcome st' issued hsafe _
    exact runs_pure hsafe trivial
  · intro _ st' hst
    exact not_armed_uidMove (.move src dest uids uidvalidity) rfl hat
      (holdsBatch_self hsource) hst
  · intro hasUidplus _ _ _
    exact not_armed_fallback (.move src dest uids uidvalidity) rfl hat hsource

end

/-! ## Runs that end in an error -/

section

variable {α β : Type} {policy : UidPolicy} {st : Store γ} {answers : List Answer}
variable {X : Store γ → Prop}

/-- The run ends in an error, in a store of which `X` holds. -/
def Fails (policy : UidPolicy) (p : Prog α) (st : Store γ) (answers : List Answer)
    (X : Store γ → Prop) : Prop :=
  (∃ e, (exec policy p st answers).result = some (.error e)) ∧ X (exec policy p st answers).store

theorem fails_pure (a : α) : Fails policy (pure a) st answers X ↔ False := by
  constructor
  · rintro ⟨⟨e, he⟩, -⟩
    cases he
  · exact False.elim

theorem fails_throw (e : ImapError) :
    Fails policy (Prog.throw e : Prog α) st answers X ↔ X st :=
  ⟨fun h => h.2, fun h => ⟨⟨e, rfl⟩, h⟩⟩

/-- The store after a command that has failed. -/
def storeAfter (policy : UidPolicy) (st : Store γ) (cmd : Command) (applied : Bool) : Store γ :=
  if applied then (serve policy st cmd).getD st else st

theorem fails_command {cmd : Command} {onError : AsyncImapError → ImapError}
    {next : Reply → Prog α} :
    Fails policy (.command cmd onError next) st answers X ↔
      match answers with
      | [] => False
      | .fails _ applied :: _ => X (storeAfter policy st cmd applied)
      | .completes reply _ :: rest =>
          match serve policy st cmd with
          | none => X st
          | some st' => Fails policy (next reply) st' rest X := by
  rcases answers with _ | ⟨⟨reply, items⟩ | ⟨e, applied⟩, rest⟩
  · constructor
    · rintro ⟨⟨e, he⟩, -⟩
      cases he
    · exact False.elim
  · dsimp only
    rcases hserve : serve policy st cmd with _ | st'
    · simp [Fails, exec, hserve]
    · simp [Fails, exec, hserve, Outcome.after]
  · simp [Fails, exec, storeAfter]

theorem refusal_none (before items : List Item) :
    refusal (fun _ _ => none) before items = none := by
  induction items generalizing before with
  | nil => rfl
  | cons item rest ih => exact ih _

theorem fails_stream {cmd : Command} {next : List Item → Prog α} :
    Fails policy (.stream cmd (fun _ _ => none) next) st answers X ↔
      match answers with
      | [] => False
      | .fails _ applied :: _ => X (storeAfter policy st cmd applied)
      | .completes _ items :: rest =>
          match serve policy st cmd with
          | none => X st
          | some st' => Fails policy (next items) st' rest X := by
  rcases answers with _ | ⟨⟨reply, items⟩ | ⟨e, applied⟩, rest⟩
  · constructor
    · rintro ⟨⟨e, he⟩, -⟩
      cases he
    · exact False.elim
  · dsimp only
    rcases hserve : serve policy st cmd with _ | st'
    · simp [Fails, exec, hserve]
    · simp [Fails, exec, hserve, refusal_none, Outcome.after]
  · simp [Fails, exec, storeAfter]

theorem not_fails_of_runs {p : Prog α} {Q : α → Store γ → List Command → Prop}
    (h : Runs policy p st (fun after => ¬ X after) Q) : ¬ Fails policy p st answers X :=
  fun hfails => (h answers).1 hfails.2

end

/-! ## A delete -/

/-- What is left of the body after the SELECT. -/
def afterSelect (caps : ServerCapabilities) (src : String) (uid : Uid) (trash : String)
    (uidvalidity : Option Nat) (selected : Reply) : Prog Bool := do
  let (result, _) ← (do
    checkUidvalidity src uidvalidity selected.uidValidity
    let result ← deleteMessage caps uid src trash
    pure (result, selected.uidValidity) : Prog (DeleteResult × Option Nat))
  pure result.folderWideExpunge

theorem body_delete_eq (caps : ServerCapabilities) {src : String} (uid : Uid) (trash : String)
    (uidvalidity : Option Nat) (hname : controlByteAt 0 src.toList = none) :
    (Operation.delete src uid trash uidvalidity).body caps =
      .command (.select src false) (mapSelectErr src)
        (afterSelect caps src uid trash uidvalidity) := by
  rw [Operation.body, deleteBody, select, validateServerFolderName_of_none hname]
  rfl

/-- The delete gets as far as its STORE. -/
structure ReachesStore (caps : ServerCapabilities) (src trash : String)
    (uidvalidity observed : Option Nat) : Prop where
  uidvalidity : ∀ expected actual, uidvalidity = some expected → observed = some actual →
    actual = expected
  source_valid : FolderName.isValid src = true
  trash_valid : FolderName.isValid trash = true
  known : eqIgnoreAsciiCase src trash = true ∨ caps ≠ .unknown

/-- What is left of the body after the STORE. -/
def afterStore (caps : ServerCapabilities) (src : String) (uid : Uid) (trash : String) :
    Prog Bool :=
  if eqIgnoreAsciiCase src trash then pure false
  else
    match caps with
    | .known hasMove hasUidplus => do
        moveToTrash uid trash hasMove hasUidplus
        pure (fallbackUsesFolderWideExpunge hasMove hasUidplus)
    | .unknown => pure false

theorem throw_ne_pure {e : ImapError} : (Prog.throw e : Prog Unit) ≠ pure () := nofun

theorem checkUidvalidity_eq_pure_iff {folder : String} {expected observed : Option Nat} :
    checkUidvalidity folder expected observed = pure () ↔
      ∀ e a, expected = some e → observed = some a → a = e := by
  rcases expected with _ | e
  · exact ⟨fun _ => nofun, fun _ => rfl⟩
  rcases observed with _ | a
  · exact ⟨fun _ => nofun, fun _ => rfl⟩
  rw [checkUidvalidity]
  by_cases hagree : a = e
  · rw [if_neg (not_not.mpr hagree)]
    exact ⟨by rintro - _ _ ⟨rfl⟩ ⟨rfl⟩; exact hagree, fun _ => rfl⟩
  · rw [if_pos hagree]
    exact ⟨fun h => absurd h throw_ne_pure, fun h => absurd (h e a rfl rfl) hagree⟩

theorem validateFolderName_eq_pure_iff {name : String} :
    validateFolderName name = pure () ↔ FolderName.isValid name = true := by
  rw [validateFolderName]
  split
  · rename_i hvalid
    exact ⟨fun _ => hvalid, fun _ => rfl⟩
  · rename_i hinvalid
    exact ⟨fun h => absurd h throw_ne_pure, fun h => absurd h hinvalid⟩

section

variable {caps : ServerCapabilities} {src trash : String} {uid : Uid} {uidvalidity : Option Nat}
variable {selected : Reply}

theorem afterSelect_of_reaches (h : ReachesStore caps src trash uidvalidity selected.uidValidity) :
    afterSelect caps src uid trash uidvalidity selected =
      .stream (.uidStore [uid] [.deleted] .add) (fun _ _ => none)
        fun _ => afterStore caps src uid trash := by
  rw [afterSelect, checkUidvalidity_eq_pure_iff.mpr h.uidvalidity, deleteMessage,
    validateFolderName_eq_pure_iff.mpr h.source_valid,
    validateFolderName_eq_pure_iff.mpr h.trash_valid]
  unfold afterStore
  rcases hsame : eqIgnoreAsciiCase src trash with _ | _
  · rcases caps with ⟨hasMove, hasUidplus⟩ | _
    · rcases hasMove with _ | _ <;> rcases hasUidplus with _ | _ <;> rfl
    · have hknown := h.known
      rw [hsame] at hknown
      exact absurd rfl (hknown.resolve_left Bool.false_ne_true)
  · rfl

theorem afterSelect_of_not_reaches (uid : Uid)
    (h : ¬ ReachesStore caps src trash uidvalidity selected.uidValidity) :
    ∃ e, afterSelect caps src uid trash uidvalidity selected = Prog.throw e := by
  rw [afterSelect]
  rcases checkUidvalidity_cases src uidvalidity selected.uidValidity with hcheck | ⟨e, hcheck⟩
  · rw [hcheck, deleteMessage]
    rcases validateFolderName_cases src with hsrc | ⟨e, hsrc⟩
    · rw [hsrc]
      rcases validateFolderName_cases trash with htrash | ⟨e, htrash⟩
      · rw [htrash]
        have hcaps : ¬ (eqIgnoreAsciiCase src trash = true ∨ caps ≠ .unknown) := fun hknown =>
          h ⟨checkUidvalidity_eq_pure_iff.mp hcheck, validateFolderName_eq_pure_iff.mp hsrc,
            validateFolderName_eq_pure_iff.mp htrash, hknown⟩
        obtain ⟨hother, hunknown⟩ := not_or.mp hcaps
        rw [not_not.mp hunknown, if_neg hother]
        exact ⟨_, rfl⟩
      · rw [htrash]
        exact ⟨e, rfl⟩
    · rw [hsrc]
      exact ⟨e, rfl⟩
  · rw [hcheck]
    exact ⟨e, rfl⟩

end

/-! ## When a delete arms a purge -/

/-- A message that is not flagged and has no copy at the destination. -/
def Exposed (op : Operation) (before : Store γ) : Prop :=
  ∃ m, Target op before m ∧ m.content ∉ contents (before.messages op.destination)

/-- The MOVE or COPY into a mailbox has not been done. -/
def Answer.undone (destExists : Bool) : Answer → Bool
  | .completes _ _ => !destExists
  | .fails _ applied => !(applied && destExists)

/-- The answers from the STORE on leave the flag as the last thing done. -/
def leavesFlagged (inTrash trashExists : Bool) : List Answer → Prop
  | .fails _ applied :: _ => applied = true
  | .completes _ _ :: moved :: _ => inTrash = false ∧ moved.undone trashExists = true
  | _ => False

/-- The run ends in an error between the STORE and the MOVE or COPY. -/
def Operation.stopsAtFlag (caps : ServerCapabilities) (st : Store γ) :
    Operation → List Answer → Prop
  | .delete src _ trash uidvalidity, .completes selected _ :: rest =>
      controlByteAt 0 src.toList = none ∧
        (st.mailboxes (mailboxName src)).isSome = true ∧
        ReachesStore caps src trash uidvalidity selected.uidValidity ∧
        leavesFlagged (eqIgnoreAsciiCase src trash) (st.mailboxes (mailboxName trash)).isSome rest
  | _, _ => False

section

variable {policy : UidPolicy} {st st' before : Store γ} {box : Mailbox γ} {op : Operation}
variable {src dest : String} {uids : List Uid}

/-- The STORE arms what is exposed, since it changes no content. -/
theorem armed_uidStore_iff (hat : st.At op.source box) (hbefore : st.mailboxes = before.mailboxes)
    (hserve : serve policy st (.uidStore op.targets [.deleted] .add) = some st') :
    Armed op before st' ↔ Exposed op before := by
  have hmessages : st.messages = before.messages := by
    funext name
    simp [Store.messages, hbefore]
  have hcontents : contents (st'.messages op.destination) =
      contents (before.messages op.destination) := by
    rw [contents_uidStore hat hserve, hmessages]
  constructor
  · rintro ⟨m, harmed⟩
    refine ⟨m, harmed.toTarget, ?_⟩
    rw [← hcontents]
    exact harmed.absent
  · rintro ⟨m, htarget, habsent⟩
    refine ⟨m, ⟨htarget, ?_, by rwa [hcontents]⟩⟩
    have hmem := htarget.mem
    rw [← hmessages, hat.messages] at hmem
    rw [serve_uidStore hat] at hserve
    cases hserve
    rw [Store.messages_put_self]
    refine ⟨_, List.mem_map_of_mem hmem, by simp, by simp, ?_⟩
    simp [Message.store_deleted, htarget.listed]

theorem isSome_serve_uidCopy (hat : st.At src box) :
    (serve policy st (.uidCopy uids dest)).isSome = (st.mailboxes (mailboxName dest)).isSome := by
  rcases hdest : st.mailboxes (mailboxName dest) with _ | target
  · simp [serve, hat.selected, hdest]
  · simp [serve, hat.selected, hat.mailbox, hdest]

theorem isSome_serve_uidMove (hat : st.At src box) (hne : src ≠ mailboxName dest) :
    (serve policy st (.uidMove uids dest)).isSome = (st.mailboxes (mailboxName dest)).isSome := by
  have hput (box' : Mailbox γ) := Store.mailboxes_put_of_ne st (Ne.symm hne) box'
  rcases hdest : st.mailboxes (mailboxName dest) with _ | target
  · simp [serve, hat.selected, hat.mailbox, hput, hdest]
  · simp [serve, hat.selected, hat.mailbox, hput, hdest]

/-- A command that takes `X` away for good. -/
theorem fails_undone {α : Type} {cmd : Command} {onError : AsyncImapError → ImapError}
    {next : Reply → Prog α} {answers : List Answer} {X : Store γ → Prop} {destExists : Bool}
    (hserves : (serve policy st cmd).isSome = destExists)
    (hdone : ∀ st', serve policy st cmd = some st' →
      ¬ X st' ∧ ∀ reply rest, ¬ Fails policy (next reply) st' rest X) :
    Fails policy (.command cmd onError next) st answers X ↔
      X st ∧ ∃ moved rest, answers = moved :: rest ∧ moved.undone destExists = true := by
  rw [fails_command]
  rcases answers with _ | ⟨⟨reply, items⟩ | ⟨e, applied⟩, rest⟩
  · simp
  · rcases hserve : serve policy st cmd with _ | st'
    · rw [hserve] at hserves
      simp [Answer.undone, ← hserves]
    · rw [hserve] at hserves
      simp [Answer.undone, ← hserves, (hdone st' hserve).2 reply rest]
  · rcases hserve : serve policy st cmd with _ | st'
    · rw [hserve] at hserves
      simp [Answer.undone, ← hserves, storeAfter, hserve]
    · rw [hserve] at hserves
      rcases applied with _ | _
      · simp [Answer.undone, storeAfter]
      · simp [Answer.undone, ← hserves, storeAfter, hserve, (hdone st' hserve).1]

/-- Once a copy is there, the EXPUNGE arms nothing. -/
theorem not_fails_runExpunge {α : Type} (op : Operation) (hne : op.source ≠ op.destination)
    (hdest : mailboxName dest = op.destination) (hat : st.At op.source box)
    (hbatch : HoldsBatch op before box)
    (hserve : serve policy st (.uidCopy op.targets dest) = some st') (hasUidplus : Bool) (a : α)
    (answers : List Answer) :
    ¬ Fails policy (do runExpunge op.targets (expungeStrategy hasUidplus); pure a) st' answers
      (Armed op before) := by
  have hcopied : ¬ Armed op before st' :=
    not_armed_of_arrived (arrived_uidCopy hdest hat hbatch hserve)
  have hat' := (apart_uidCopy hne hdest hat hserve).1
  apply not_fails_of_runs (Q := fun _ _ _ => True)
  apply runs_bind.mpr
  apply runs_runExpunge hcopied
  intro st'' hst
  have hpurged : ¬ Armed op before st'' := not_armed_expungeCommand hat' hst
  exact ⟨hpurged, runs_pure hpurged trivial⟩

end

section

variable {policy : UidPolicy} {caps : ServerCapabilities} {st before : Store γ} {box : Mailbox γ}
variable {src trash : String} {uid : Uid} {uidvalidity : Option Nat} {answers : List Answer}

theorem fails_afterStore_known {hasMove hasUidplus : Bool}
    (hother : eqIgnoreAsciiCase src trash = false) (hat : st.At (mailboxName src) box)
    (hbatch : HoldsBatch (.delete src uid trash uidvalidity) before box) :
    Fails policy (afterStore (.known hasMove hasUidplus) src uid trash) st answers
        (Armed (.delete src uid trash uidvalidity) before) ↔
      Armed (.delete src uid trash uidvalidity) before st ∧ ∃ moved rest,
        answers = moved :: rest ∧
          moved.undone (st.mailboxes (mailboxName trash)).isSome = true := by
  have hne := mailboxName_ne hother
  rw [afterStore, hother, if_neg Bool.false_ne_true]
  rcases hasMove with _ | _
  · apply fails_undone (isSome_serve_uidCopy hat)
    intro st' hserve
    refine ⟨not_armed_of_arrived (arrived_uidCopy rfl hat hbatch hserve), ?_⟩
    intro reply rest
    exact not_fails_runExpunge (.delete src uid trash uidvalidity) hne rfl hat hbatch hserve
      hasUidplus _ rest
  · apply fails_undone (isSome_serve_uidMove hat hne)
    intro st' hserve
    refine ⟨not_armed_uidMove _ rfl hat hbatch hserve, ?_⟩
    intro reply rest hfails
    exact (fails_pure _).mp hfails

/-- From the STORE on. -/
theorem fails_stored (hknown : eqIgnoreAsciiCase src trash = true ∨ caps ≠ .unknown)
    (hat : st.At (mailboxName src) box) (hbefore : st.mailboxes = before.mailboxes) :
    Fails policy (.stream (.uidStore [uid] [.deleted] .add) (fun _ _ => none)
        fun _ => afterStore caps src uid trash) st answers
        (Armed (.delete src uid trash uidvalidity) before) ↔
      Exposed (.delete src uid trash uidvalidity) before ∧
        leavesFlagged (eqIgnoreAsciiCase src trash)
          (before.mailboxes (mailboxName trash)).isSome answers := by
  have hserve : serve policy st (.uidStore [uid] [.deleted] .add) =
      some (st.put (mailboxName src) (box.store [uid] [.deleted] .add)) :=
    serve_uidStore hat _ _
  have harmed : Armed (.delete src uid trash uidvalidity) before
      (st.put (mailboxName src) (box.store [uid] [.deleted] .add)) ↔
        Exposed (.delete src uid trash uidvalidity) before :=
    armed_uidStore_iff hat hbefore hserve
  have hunflagged : ¬ Armed (.delete src uid trash uidvalidity) before st :=
    not_armed_of_mailboxes hbefore
  rw [fails_stream]
  rcases answers with _ | ⟨⟨reply, items⟩ | ⟨e, applied⟩, rest⟩
  · simp [leavesFlagged]
  · dsimp only
    rw [hserve]
    dsimp only
    rcases hsame : eqIgnoreAsciiCase src trash with _ | _
    · rcases caps with ⟨hasMove, hasUidplus⟩ | _
      · have hbatch : HoldsBatch (.delete src uid trash uidvalidity) before
            (box.store [uid] [.deleted] .add) := by
          apply holdsBatch_store
          rw [← hat.messages]
          exact congrArg (fun found => (found.map Mailbox.messages).getD [])
            (congrFun hbefore.symm (mailboxName src))
        have htrash : ((st.put (mailboxName src) (box.store [uid] [.deleted] .add)).mailboxes
            (mailboxName trash)).isSome = (before.mailboxes (mailboxName trash)).isSome := by
          rw [Store.mailboxes_put_of_ne _ (Ne.symm (mailboxName_ne hsame)), hbefore]
        rw [fails_afterStore_known hsame (hat.put _) hbatch, harmed, htrash]
        rcases rest with _ | ⟨moved, rest⟩
        · simp [leavesFlagged]
        · simp [leavesFlagged]
      · rw [hsame] at hknown
        exact absurd rfl (hknown.resolve_left Bool.false_ne_true)
    · have hpure : afterStore caps src uid trash = pure false := by
        rw [afterStore.eq_def, hsame, if_pos rfl]
      rw [hpure, fails_pure]
      rcases rest with _ | ⟨moved, rest⟩
      · simp [leavesFlagged]
      · simp [leavesFlagged]
  · rcases applied with _ | _
    · simp [storeAfter, hunflagged, leavesFlagged]
    · simp [storeAfter, hserve, harmed, leavesFlagged]

theorem fails_delete (op : Operation) (hop : op = .delete src uid trash uidvalidity) :
    Fails policy (op.body caps) before answers (Armed op before) ↔
      Exposed op before ∧ op.stopsAtFlag caps before answers := by
  have hunchanged : ¬ Armed op before before := not_armed_of_mailboxes rfl
  rcases hname : controlByteAt 0 src.toList with _ | ⟨b, i⟩
  · subst hop
    rw [body_delete_eq caps uid trash uidvalidity hname, fails_command]
    rcases answers with _ | ⟨⟨selected, items⟩ | ⟨e, applied⟩, rest⟩
    · simp [Operation.stopsAtFlag]
    · rcases hbox : before.mailboxes (mailboxName src) with _ | box
      · simp [serve, hbox, hunchanged, Operation.stopsAtFlag]
      · have hserve : serve policy before (.select src false) =
            some { before with selected := some (mailboxName src) } := by
          simp [serve, hbox]
        have hat : Store.At { before with selected := some (mailboxName src) } (mailboxName src)
            box := ⟨rfl, hbox⟩
        simp only [hserve, Operation.stopsAtFlag, hname, hbox, Option.isSome_some, true_and]
        by_cases hreaches : ReachesStore caps src trash uidvalidity selected.uidValidity
        · rw [afterSelect_of_reaches hreaches]
          have hbefore : Store.mailboxes { before with selected := some (mailboxName src) } =
              before.mailboxes := rfl
          apply (fails_stored hreaches.known hat hbefore).trans
          simp [hreaches]
        · obtain ⟨e, he⟩ := afterSelect_of_not_reaches uid hreaches
          rw [he, fails_throw]
          simp only [hreaches, false_and, and_false, iff_false]
          exact not_armed_of_mailboxes rfl
    · simp only [storeAfter, Operation.stopsAtFlag, and_false, iff_false]
      refine store_of_fails (P := fun after => ¬ Armed _ before after) hunchanged ?_ applied
      intro st' hserve
      simp only [serve, Option.bind_eq_bind, Option.bind_eq_some_iff, Option.some.injEq] at hserve
      obtain ⟨box, -, rfl⟩ := hserve
      exact not_armed_of_mailboxes rfl
  · subst hop
    obtain ⟨e, hthrow⟩ : ∃ e, (Operation.delete src uid trash uidvalidity).body caps =
        Prog.throw e := by
      rw [Operation.body, deleteBody, select, validateServerFolderName, hname]
      exact ⟨_, rfl⟩
    rw [hthrow, fails_throw]
    rcases answers with _ | ⟨answer, rest⟩
    · simp [hunchanged, Operation.stopsAtFlag]
    · rcases answer with ⟨selected, items⟩ | ⟨e, applied⟩
      · simp [hunchanged, Operation.stopsAtFlag, hname]
      · simp [hunchanged, Operation.stopsAtFlag]

end

/-! ## The claim over both operations -/

/-- **What a failed operation leaves flagged**: no message that lacked the flag is left
    flagged without a copy, wherever the run fails, exactly when the run does not end
    between the STORE of a delete and its MOVE or COPY with such a message there. -/
theorem failed_not_armed_iff (policy : UidPolicy) (caps : ServerCapabilities) (op : Operation)
    (before : Store γ) (answers : List Answer) :
    ((∃ e, (exec policy (op.body caps) before answers).result = some (.error e)) →
        ¬ Armed op before (exec policy (op.body caps) before answers).store) ↔
      ¬ (Exposed op before ∧ op.stopsAtFlag caps before answers) := by
  rw [← not_and]
  apply not_congr
  rcases op with ⟨src, dest, uids, uidvalidity⟩ | ⟨src, uid, trash, uidvalidity⟩
  · constructor
    · intro hfails
      exact absurd hfails (not_fails_of_runs runs_move_not_armed)
    · intro h
      exact h.2.elim
  · exact fails_delete _ rfl

/-- Message 5 in INBOX, and an empty Trash. -/
def inboxAndTrash : Store String where
  mailboxes name :=
    if name = "INBOX" then some ⟨[⟨5, "invoice", []⟩], 6⟩
    else if name = "Trash" then some ⟨[], 1⟩
    else none
  selected := none

def deleteFive : Operation := .delete "INBOX" 5 "Trash" none

/-- The server refuses the MOVE. -/
def moveRefused : List Answer :=
  [.completes {} [], .completes {} [], .fails (.no "[OVERQUOTA] Mailbox is full") false]

theorem refused_move_armed :
    (exec consecutive (deleteFive.body (.known true true)) inboxAndTrash moveRefused).result =
        some (.error (mapErr (.no "[OVERQUOTA] Mailbox is full"))) ∧
      Armed deleteFive inboxAndTrash
        (exec consecutive (deleteFive.body (.known true true)) inboxAndTrash
          moveRefused).store := by
  refine ⟨rfl, ⟨5, "invoice", []⟩, ⟨?_, ?_, ?_⟩, ?_, ?_⟩
  · exact List.mem_singleton_self _
  · decide
  · rintro ⟨m, hmem, -, -, hdeleted⟩
    obtain rfl := List.mem_singleton.mp hmem
    cases hdeleted
  · exact ⟨⟨5, "invoice", [.deleted]⟩, List.mem_singleton_self _, rfl, rfl, rfl⟩
  · exact List.not_mem_nil

end RustyImap.MailStore
