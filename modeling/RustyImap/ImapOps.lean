import RustyImap.FolderName

/-!
# IMAP operations as programs over commands

The operations of `rimap-imap/src/ops/` and the bodies that
`connection/dispatch.rs` builds from them, as programs: a program awaits one
command after the other and ends with a result.  A command is answered as a whole
or by a stream of items; a stream may be left early, by an item of its own that
is an error or by a check on an item.

What a command does is not said here.  `SessionDispatch` runs a program over the
answers on the wire, `MailStore` over the contents of mailboxes.

Message texts, header structures and the text of commands are left out; a UID set
is the list of its UIDs.
-/

namespace RustyImap.ImapOps

/-! ## Errors -/

/-- The kinds of `std::io::ErrorKind` that are told apart. -/
inductive IoErrorKind where
  | connectionReset
  | connectionAborted
  | brokenPipe
  | unexpectedEof
  | notConnected
  | other
deriving DecidableEq, Repr

def isDeadTcpKind : IoErrorKind → Bool
  | .connectionReset | .connectionAborted | .brokenPipe | .unexpectedEof | .notConnected => true
  | .other => false

/-- `async_imap::error::Error`. -/
inductive AsyncImapError where
  | io (kind : IoErrorKind)
  | bad (message : String)
  | no (message : String)
  | connectionLost
  | parse
  | validate
  | append
deriving DecidableEq, Repr

/-- The `ImapError`s that a command body can end with. -/
inductive ImapError where
  | timeout (op : String)
  | sizeLimit (limit : Nat)
  | protocol (error : AsyncImapError)
  | capabilitiesUnknown (op : String)
  | folderNotFound (name : String)
  | connectionLost
  | invalidInput (field reason : String)
  | batchTooLarge (count limit : Nat)
  | uidValidityChanged (folder : String) (expected actual : Nat)
  | uidValidityUnavailable (folder : String)
deriving DecidableEq, Repr

/-- `is_connection_lost`; only the I/O error has a source to look at. -/
def isConnectionLost : AsyncImapError → Bool
  | .connectionLost => true
  | .io kind => isDeadTcpKind kind
  | .bad _ | .no _ | .parse | .validate | .append => false

def mapErr (err : AsyncImapError) : ImapError :=
  if isConnectionLost err then .connectionLost else .protocol err

def mapSelectErr (folder : String) (err : AsyncImapError) : ImapError :=
  match err with
  | .no _ => .folderNotFound folder
  | _ => mapErr err

/-! ## Commands and programs -/

abbrev Uid := Nat

/-- `Uid::new` on a number of the wire. -/
def Uid.new (n : Nat) : Option Uid := if n = 0 then none else some n

inductive Flag where
  | seen
  | answered
  | flagged
  | deleted
  | draft
  | recent
  | keyword (name : String)
deriving DecidableEq, Repr

inductive FlagAction where
  | add
  | remove
deriving DecidableEq, Repr

inductive Command where
  | list (pattern : String)
  | status (folder : String)
  | select (folder : String) (readOnly : Bool)
  | uidSearch (key : String)
  | uidFetch (uids : List Uid) (items : String)
  | uidStore (uids : List Uid) (flags : List Flag) (action : FlagAction)
  | uidMove (uids : List Uid) (dest : String)
  | uidCopy (uids : List Uid) (dest : String)
  | uidExpunge (uids : List Uid)
  | expunge
  | append (folder : String) (message : List UInt8) (flags : List Flag) (keywords : List String)
  | create (name : String)
  | rename (oldName newName : String)
  | delete (name : String)
deriving DecidableEq, Repr

/-- What the operations read of a completed command. -/
structure Reply where
  uidValidity : Option Nat := none
  uids : List Nat := []
deriving DecidableEq, Repr

/-- What the operations read of a stream item. -/
structure Item where
  uid : Option Nat := none
  body : Option (List UInt8) := none
  size : Option Nat := none
  name : String := ""
  selectable : Bool := true
deriving DecidableEq, Repr

inductive Prog (α : Type) : Type where
  | done (result : Except ImapError α)
  | command (cmd : Command) (onError : AsyncImapError → ImapError) (next : Reply → Prog α)
  | stream (cmd : Command) (check : List Item → Item → Option ImapError)
      (next : List Item → Prog α)

namespace Prog

variable {α β : Type}

def bind : Prog α → (α → Prog β) → Prog β
  | .done (.ok a), f => f a
  | .done (.error e), _ => .done (.error e)
  | .command cmd onError next, f => .command cmd onError fun reply => (next reply).bind f
  | .stream cmd check next, f => .stream cmd check fun items => (next items).bind f

instance : Monad Prog where
  pure a := .done (.ok a)
  bind := bind

def throw (e : ImapError) : Prog α := .done (.error e)

end Prog

/-- `session.<command>().await.map_err(..)?`. -/
def send (cmd : Command) (onError : AsyncImapError → ImapError) : Prog Reply :=
  .command cmd onError fun reply => .done (.ok reply)

/-- A stream read to its end. -/
def collect (cmd : Command) : Prog (List Item) :=
  .stream cmd (fun _ _ => none) fun items => .done (.ok items)

/-! ## Checks before a command -/

def hexDigit (n : Nat) : Char := "0123456789abcdef".toList.getD n '0'

/-- `validate_server_folder_name`, with the offset in bytes. -/
def controlByteAt : Nat → List Char → Option (Nat × Nat)
  | _, [] => none
  | offset, c :: rest =>
      if c.toNat < 0x20 || c.toNat == 0x7F then some (c.toNat, offset)
      else controlByteAt (offset + c.utf8Size) rest

def validateServerFolderName (name : String) : Prog Unit :=
  match controlByteAt 0 name.toList with
  | none => pure ()
  | some (b, i) =>
      .throw (.protocol (.bad ("server returned mailbox name containing control byte 0x" ++
        String.ofList [hexDigit (b / 16), hexDigit (b % 16)] ++ " at offset " ++ toString i)))

def validateFolderName (name : String) : Prog Unit :=
  if FolderName.isValid name then pure ()
  else .throw (.invalidInput "folder_name" "folder name failed structural validation")

/-- The bytes that `validate_keyword` refuses beside the control bytes. -/
def atomSpecials : List Char := ['(', ')', '\x7b', ' ', '%', '*', '"', '\\', ']', '[']

def validateKeyword (keyword : String) : Prog Unit :=
  if keyword.isEmpty then .throw (.invalidInput "keyword" "keyword must not be empty")
  else
    match keyword.toList.find? fun c =>
      c.toNat ≤ 0x1F || c.toNat == 0x7F || atomSpecials.contains c with
    | none => pure ()
    | some c =>
        if c.toNat ≤ 0x1F || c.toNat == 0x7F then
          .throw (.invalidInput "keyword" "contains control characters")
        else .throw (.invalidInput "keyword" "contains IMAP atom-special characters")

/-- The refusals of `flags_string`. -/
def checkFlags : List Flag → Prog Unit
  | [] => pure ()
  | .keyword name :: rest => do
      validateKeyword name
      checkFlags rest
  | _ :: rest => checkFlags rest

def checkKeywords : List String → Prog Unit
  | [] => pure ()
  | keyword :: rest => do
      validateKeyword keyword
      checkKeywords rest

/-- `check_uidvalidity`: an absent value is let through with a warning. -/
def checkUidvalidity (folder : String) (expected observed : Option Nat) : Prog Unit :=
  match expected, observed with
  | some expected, some actual =>
      if actual ≠ expected then .throw (.uidValidityChanged folder expected actual) else pure ()
  | _, _ => pure ()

/-- `require_uidvalidity`: an absent value is refused. -/
def requireUidvalidity (folder : String) (expected observed : Option Nat) : Prog Unit :=
  match expected, observed with
  | none, _ => pure ()
  | some expected, some actual =>
      if actual = expected then pure () else .throw (.uidValidityChanged folder expected actual)
  | some _, none => .throw (.uidValidityUnavailable folder)

/-! ## Operations -/

def select (folder : String) (readOnly : Bool) : Prog Reply := do
  validateServerFolderName folder
  send (.select folder readOnly) (mapSelectErr folder)

/-- `list`, without the entries whose name has a control byte. -/
def list (pattern : String) : Prog (List Item) := do
  let names ← collect (.list pattern)
  pure (names.filter fun name => (controlByteAt 0 name.name.toList).isNone)

def status (folder : String) : Prog Reply := do
  validateServerFolderName folder
  send (.status folder) mapErr

/-- The loop of `list_with_status`. -/
def statusOfEach : List Item → Prog (List (Item × Option Reply))
  | [] => pure []
  | folder :: rest => do
      let folderStatus ← if folder.selectable then some <$> status folder.name else pure none
      let out ← statusOfEach rest
      pure ((folder, folderStatus) :: out)

def listWithStatus (pattern : String) : Prog (List (Item × Option Reply)) := do
  let folders ← list pattern
  statusOfEach folders

/-- `search`; `key` is the text of the query or its refusal. -/
def search (folder : String) (key : Except ImapError String) :
    Prog (List Uid × Option Nat) := do
  let selected ← select folder true
  let key ← Prog.done key
  let found ← send (.uidSearch key) mapErr
  pure (found.uids.filterMap Uid.new, selected.uidValidity)

/-- `thread_related`; `key` is none when there is nothing to search by. -/
def threadRelated (folder : String) (key : Except ImapError (Option String)) :
    Prog (List Uid × Option Nat) := do
  let key ← Prog.done key
  match key with
  | none =>
      let selected ← select folder true
      pure ([], selected.uidValidity)
  | some key => search folder (.ok key)

def fetch (folder : String) (uids : List Uid) (items : String)
    (expectedUidvalidity : Option Nat) : Prog (List (Uid × Item) × Option Nat) := do
  let selected ← select folder true
  checkUidvalidity folder expectedUidvalidity selected.uidValidity
  if uids.isEmpty then pure ([], selected.uidValidity)
  else do
    let messages ← collect (.uidFetch uids items)
    -- an item without a UID is skipped
    let out := messages.filterMap fun msg => (msg.uid.bind Uid.new).map fun uid => (uid, msg)
    pure (out, selected.uidValidity)

def preflightFetchSize (folder : String) (uid : Uid) (expectedUidvalidity : Option Nat) :
    Prog (Option Nat) := do
  let selected ← select folder true
  requireUidvalidity folder expectedUidvalidity selected.uidValidity
  let messages ← collect (.uidFetch [uid] "RFC822.SIZE")
  pure (messages.foldl (fun size msg => if msg.uid = some uid then msg.size else size) none)

def preflightSizeCheck (serverSize : Option Nat) (limit : Nat) : Prog Unit :=
  match serverSize with
  | some size => if limit < size then .throw (.sizeLimit limit) else pure ()
  | none => pure ()

def bodiesLength (items : List Item) : Nat :=
  items.foldl (fun total msg => total + (msg.body.map List.length).getD 0) 0

/-- `project_size` on the next item of the stream. -/
def projectSize (limit : Nat) (before : List Item) (item : Item) : Option ImapError :=
  match item.body with
  | some body => if limit < bodiesLength before + body.length then some (.sizeLimit limit) else none
  | none => none

def fetchBody (folder : String) (uid : Uid) (limit : Nat) (expectedUidvalidity : Option Nat) :
    Prog (List UInt8) := do
  let selected ← select folder true
  requireUidvalidity folder expectedUidvalidity selected.uidValidity
  let messages ← Prog.stream (.uidFetch [uid] "BODY.PEEK[]") (projectSize limit)
    fun items => Prog.done (.ok items)
  if messages.any fun msg => msg.body.isSome then
    pure (messages.flatMap fun msg => msg.body.getD [])
  else .throw (.protocol (.bad "FETCH BODY[] returned no body"))

/-- The body of `fetch_body_with_limit`. -/
def fetchBodyWithLimit (folder : String) (uid : Uid) (expectedUidvalidity : Option Nat)
    (limit : Nat) : Prog (List UInt8) := do
  let serverSize ← preflightFetchSize folder uid expectedUidvalidity
  preflightSizeCheck serverSize limit
  fetchBody folder uid limit expectedUidvalidity

def MAX_BATCH : Nat := 100

def store (uids : List Uid) (flags : List Flag) (action : FlagAction) : Prog (List Uid) :=
  if MAX_BATCH < uids.length then .throw (.batchTooLarge uids.length MAX_BATCH)
  else if uids.isEmpty then pure []
  else do
    checkFlags flags
    let items ← collect (.uidStore uids flags action)
    pure (items.filterMap fun item => item.uid.bind Uid.new)

/-- The body of `store_flags`. -/
def storeFlags (folder : String) (uids : List Uid) (flags : List Flag) (action : FlagAction)
    (expectedUidvalidity : Option Nat) : Prog (List Uid × Option Nat) := do
  let selected ← select folder false
  checkUidvalidity folder expectedUidvalidity selected.uidValidity
  let updated ← store uids flags action
  pure (updated, selected.uidValidity)

inductive ExpungeStrategy where
  | scoped
  | folderWide
deriving DecidableEq, Repr

def expungeStrategy (hasUidplus : Bool) : ExpungeStrategy :=
  if hasUidplus then .scoped else .folderWide

def fallbackUsesFolderWideExpunge (hasMove hasUidplus : Bool) : Bool := !hasMove && !hasUidplus

def runExpunge (uids : List Uid) : ExpungeStrategy → Prog Unit
  | .scoped => do
      let _ ← collect (.uidExpunge uids)
      pure ()
  | .folderWide => do
      let _ ← collect .expunge
      pure ()

inductive ServerCapabilities where
  | known (hasMove hasUidplus : Bool)
  | unknown
deriving DecidableEq, Repr

def ServerCapabilities.requireKnown (op : String) : ServerCapabilities → Prog (Bool × Bool)
  | .known hasMove hasUidplus => pure (hasMove, hasUidplus)
  | .unknown => .throw (.capabilitiesUnknown op)

structure MoveResult where
  oldUid : Uid
  newUid : Option Uid
  usedFallbackReason : Option String
deriving DecidableEq, Repr

def buildResults (uids : List Uid) : List MoveResult :=
  uids.map fun uid => ⟨uid, none, some "async_imap_copyuid_unavailable"⟩

structure MoveOutcome where
  results : List MoveResult
  usedFallback : Bool
  folderWideExpunge : Bool
  sourceUidValidity : Option Nat
  destinationUidValidity : Option Nat
deriving DecidableEq, Repr

def copyDeleteFallback (dest : String) (uids : List Uid) (hasUidplus : Bool) :
    Prog (List MoveResult × Option Nat) := do
  validateServerFolderName dest
  let _ ← send (.uidCopy uids dest) mapErr
  let destStatus ← status dest
  let _ ← store uids [.deleted] .add
  runExpunge uids (expungeStrategy hasUidplus)
  pure (buildResults uids, destStatus.uidValidity)

/-- The UIDVALIDITY guard of `move_messages`. -/
def guardSource (src : String) : Option Nat → Prog (Option Nat)
  | none => pure none
  | some expected => do
      let status ← status src
      match status.uidValidity with
      | some actual =>
          if actual ≠ expected then .throw (.uidValidityChanged src expected actual)
          else pure (some actual)
      | none => pure none

def moveMessages (caps : ServerCapabilities) (src dest : String) (uids : List Uid)
    (expectedSourceUidvalidity : Option Nat) : Prog MoveOutcome := do
  validateServerFolderName dest
  if MAX_BATCH < uids.length then .throw (.batchTooLarge uids.length MAX_BATCH)
  else if uids.isEmpty then pure ⟨[], false, false, none, none⟩
  else do
    let (hasMove, hasUidplus) ← caps.requireKnown "move"
    let sourceUidValidity ← guardSource src expectedSourceUidvalidity
    if !hasMove then do
      let (results, destinationUidValidity) ← copyDeleteFallback dest uids hasUidplus
      pure ⟨results, true, fallbackUsesFolderWideExpunge false hasUidplus, sourceUidValidity,
        destinationUidValidity⟩
    else do
      let _ ← send (.uidMove uids dest) mapErr
      pure ⟨buildResults uids, false, false, sourceUidValidity, none⟩

/-- The body that `Connection::move_messages` runs. -/
def moveBody (caps : ServerCapabilities) (src dest : String) (uids : List Uid)
    (expectedSourceUidvalidity : Option Nat) : Prog MoveOutcome := do
  let _ ← select src false
  moveMessages caps src dest uids expectedSourceUidvalidity

structure DeleteResult where
  uid : Uid
  movedToTrash : Bool
  usedFallback : Bool
  folderWideExpunge : Bool
deriving DecidableEq, Repr

def toAsciiLower (c : Char) : Char :=
  if 'A' ≤ c && c ≤ 'Z' then Char.ofNat (c.toNat + 32) else c

/-- A capital moves up by 32, any other character stays. -/
theorem toAsciiLower_cases (c : Char) :
    (65 ≤ c.toNat ∧ c.toNat ≤ 90 ∧ (toAsciiLower c).toNat = c.toNat + 32) ∨
      toAsciiLower c = c := by
  unfold toAsciiLower
  split
  · rename_i hupper
    rw [Bool.and_eq_true, decide_eq_true_eq, decide_eq_true_eq] at hupper
    have hlow : 65 ≤ c.toNat := hupper.1
    have hhigh : c.toNat ≤ 90 := hupper.2
    have hvalid : (c.toNat + 32).isValidChar := .inl (by omega)
    exact .inl ⟨hlow, hhigh, by rw [Char.toNat_ofNat, if_pos hvalid]⟩
  · exact .inr rfl

/-- `str::eq_ignore_ascii_case`. -/
def eqIgnoreAsciiCase (a b : String) : Bool :=
  a.toList.map toAsciiLower == b.toList.map toAsciiLower

/-- Step 4 of `delete_message`. -/
def moveToTrash (uid : Uid) (trash : String) (hasMove hasUidplus : Bool) : Prog Unit :=
  if hasMove then do
    let _ ← send (.uidMove [uid] trash) mapErr
  else do
    let _ ← send (.uidCopy [uid] trash) mapErr
    runExpunge [uid] (expungeStrategy hasUidplus)

def deleteMessage (caps : ServerCapabilities) (uid : Uid) (source trash : String) :
    Prog DeleteResult := do
  validateFolderName source
  validateFolderName trash
  if eqIgnoreAsciiCase source trash then do
    let _ ← store [uid] [.deleted] .add
    pure ⟨uid, false, false, false⟩
  else do
    let (hasMove, hasUidplus) ← caps.requireKnown "delete_message"
    let _ ← store [uid] [.deleted] .add
    moveToTrash uid trash hasMove hasUidplus
    pure ⟨uid, true, !hasMove, fallbackUsesFolderWideExpunge hasMove hasUidplus⟩

/-- The body that `Connection::delete_message` runs. -/
def deleteBody (caps : ServerCapabilities) (folder : String) (uid : Uid) (trash : String)
    (expectedUidvalidity : Option Nat) : Prog (DeleteResult × Option Nat) := do
  let selected ← select folder false
  checkUidvalidity folder expectedUidvalidity selected.uidValidity
  let result ← deleteMessage caps uid folder trash
  pure (result, selected.uidValidity)

def countDeleted (folder : String) : Prog (List Uid) := do
  validateFolderName folder
  let _ ← select folder true
  let found ← send (.uidSearch "DELETED") mapErr
  pure (found.uids.filterMap Uid.new)

/-- The body that `Connection::expunge` runs. -/
def expungeBody (folder : String) : Prog (List Uid × Nat) := do
  let deletedUids ← countDeleted folder
  let _ ← select folder false
  let expunged ← collect .expunge
  pure (deletedUids, expunged.length)

def checkAppendSize (message : List UInt8) (maxAppendBytes : Nat) : Prog Unit :=
  if maxAppendBytes < message.length then .throw (.sizeLimit maxAppendBytes) else pure ()

def append (folder : String) (message : List UInt8) (flags : List Flag)
    (keywords : List String) (maxAppendBytes : Nat) : Prog Unit := do
  checkAppendSize message maxAppendBytes
  checkFlags flags
  checkKeywords keywords
  let _ ← send (.append folder message flags keywords) mapErr

def createFolder (name : String) : Prog Unit := do
  validateFolderName name
  let _ ← send (.create name) mapErr

def renameFolder (oldName newName : String) : Prog Unit := do
  validateFolderName oldName
  validateFolderName newName
  let _ ← send (.rename oldName newName) mapErr

def deleteFolder (name : String) : Prog Unit := do
  validateFolderName name
  let _ ← send (.delete name) mapErr

end RustyImap.ImapOps
