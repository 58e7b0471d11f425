import RustyImap.LabelledRuns
import RustyImap.MailboxTree
import RustyImap.MessageBuilder

/-!
# Protected folders

`rimap-authz/src/folder_guard.rs`, the list it is built from at boot
(`rimap-server/src/boot/discovery.rs`, `rimap-imap/src/special_use.rs`) and the
handlers of `rename_folder` and `delete_folder`
(`rimap-server/src/tools/mailbox/folder_management.rs`), run against a server with
a hierarchy of names.

The guard looks at the two names of a call.  A RENAME takes the inferiors of the
old name along, and these the guard does not look at.
-/

namespace RustyImap.ProtectedFolders

open RustyImap.ImapOps RustyImap.MailboxTree
open RustyImap.MailStore (mailboxName Answer)

/-! ## The guard -/

/-- `utf7_imap::decode_utf7_imap` and `str::to_lowercase`. -/
structure NameLibs where
  decodeUtf7Imap : String → String
  toLowercase : String → String
  /-- Only an ampersand starts an encoded part. -/
  decode_plain : ∀ s, '&' ∉ s.toList → decodeUtf7Imap s = s
  lowercase_ascii : ∀ s, (s.toList.all fun c => c.toNat < 128) = true →
    toLowercase s = .ofList (s.toList.map toAsciiLower)

def normalizeFolderName (libs : NameLibs) (folder : String) : String :=
  libs.toLowercase (libs.decodeUtf7Imap folder)

/-- The errors of `rimap-authz` that the guard returns. -/
inductive GuardError where
  | protectedFolder (folder operation : String)
  | expungeDenied (folder : String)
  | invalidFolderName (reason : String)
deriving DecidableEq, Repr

/-- `From<AuthzError> for RimapError`. -/
def GuardError.toRimapError : GuardError → RimapError
  | .protectedFolder folder operation =>
      .authz .protectedFolder ("folder `" ++ folder ++ "` is protected and cannot be " ++
        operation ++ "d; remove it from protected_folders to allow this")
  | .expungeDenied folder =>
      .authz .expungeDenied ("expunge denied for folder `" ++ folder ++
        "`; add it to expunge_folders in your config to allow permanent deletion")
  | .invalidFolderName reason => .authz .invalidInput ("invalid folder name: " ++ reason)

/-- The two lists, normalized. -/
structure FolderGuard where
  protectedNames : List String       -- `protected`
  expungeAllowed : List String

def FolderGuard.new (libs : NameLibs) (protectedFolders expungeFolders : List String) :
    FolderGuard where
  protectedNames := protectedFolders.map (normalizeFolderName libs)
  expungeAllowed := expungeFolders.map (normalizeFolderName libs)

def validateAndNormalize (libs : NameLibs) (folder : String) : Except GuardError String :=
  match FolderName.validate folder with
  | .error reason => .error (.invalidFolderName reason)
  | .ok () => .ok (normalizeFolderName libs folder)

/-- A normalized name that the guard refuses to delete or rename. -/
def FolderGuard.covers (guard : FolderGuard) (norm : String) : Bool :=
  norm == "inbox" || guard.protectedNames.contains norm

def FolderGuard.checkProtected (libs : NameLibs) (guard : FolderGuard) (folder operation : String) :
    Except GuardError Unit := do
  let norm ← validateAndNormalize libs folder
  if guard.covers norm then .error (.protectedFolder folder operation) else .ok ()

def FolderGuard.checkRename (libs : NameLibs) (guard : FolderGuard) (oldName newName : String) :
    Except GuardError Unit := do
  guard.checkProtected libs oldName "rename"
  guard.checkProtected libs newName "rename"

def FolderGuard.checkExpunge (libs : NameLibs) (guard : FolderGuard) (folder : String) :
    Except GuardError Unit := do
  let norm ← validateAndNormalize libs folder
  if guard.expungeAllowed.contains norm then .ok () else .error (.expungeDenied folder)

/-! ## Boot -/

inductive SpecialUse where
  | drafts
  | sent
  | trash
  | junk
  | archive
  | all
  | flagged
deriving DecidableEq, Repr

/-- An entry of the LIST answer. -/
structure Folder where
  name : String
  specialUse : Option SpecialUse
deriving DecidableEq, Repr

/-- One slot for each use. -/
structure SpecialUseMap where
  slot : SpecialUse → Option String

def SpecialUseMap.empty : SpecialUseMap := ⟨fun _ => none⟩

/-- The first folder that claims a use keeps it. -/
def SpecialUseMap.insert (map : SpecialUseMap) (folder : Folder) : SpecialUseMap :=
  match folder.specialUse with
  | none => map
  | some use =>
      if (map.slot use).isNone then
        ⟨fun other => if other = use then some folder.name else map.slot other⟩
      else map

def SpecialUseMap.fromFolders (folders : List Folder) : SpecialUseMap :=
  folders.foldl SpecialUseMap.insert .empty

def SpecialUseMap.allDiscovered (map : SpecialUseMap) : List String :=
  [SpecialUse.drafts, .sent, .trash, .junk, .archive, .all, .flagged].filterMap map.slot

def mergeProtectedFolders (libs : NameLibs) (configured discovered : List String) : List String :=
  discovered.foldl (fun merged name =>
    if merged.any fun p => normalizeFolderName libs p == normalizeFolderName libs name then merged
    else merged ++ [name]) configured

/-- `resolve_folder_policy`: the guard of an account. -/
def resolveFolderPolicy (libs : NameLibs) (protectedFolders expungeFolders : List String)
    (folders : List Folder) : FolderGuard :=
  .new libs
    (mergeProtectedFolders libs protectedFolders
      (SpecialUseMap.fromFolders folders).allDiscovered)
    expungeFolders

/-! ## The handlers -/

inductive Call where
  | renameFolder (folder newFolder : String)
  | deleteFolder (folder : String)
deriving DecidableEq, Repr

def liftGuard {α : Type} : Except GuardError α → Except RimapError α
  | .ok a => .ok a
  | .error e => .error e.toRimapError

/-- `handle_rename_folder` and `handle_delete_folder`: a refusal, or the program over
    the connection. -/
def handle (libs : NameLibs) (guard : FolderGuard) : Call → Except RimapError (Prog Unit)
  | .renameFolder folder newFolder => do
      Compose.validateFolderInput "folder" folder
      Compose.validateFolderInput "new_folder" newFolder
      liftGuard (guard.checkRename libs folder newFolder)
      return renameFolder folder newFolder
  | .deleteFolder folder => do
      Compose.validateFolderInput "folder" folder
      liftGuard (guard.checkProtected libs folder "delete")
      liftGuard (guard.checkExpunge libs folder)
      return do
        let _ ← status folder
        deleteFolder folder

/-- A call that the guard admits, with the answers to its commands. -/
structure Step where
  call : Call
  answers : List Answer

variable {μ : Type}

def step (libs : NameLibs) (guard : FolderGuard) (delimiter : Option Char) (t : Hierarchy μ)
    (s : Step) : Option (Hierarchy μ) :=
  match handle libs guard s.call with
  | .error _ => none
  | .ok program => some (exec (serve delimiter) program t s.answers)

/-! ## What is promised -/

/-- INBOX, a configured folder or a discovered one, in any spelling. -/
def isProtected (libs : NameLibs) (guard : FolderGuard) (name : String) : Bool :=
  guard.covers (normalizeFolderName libs name)

/-- Every protected mailbox is still there under its name. -/
def Survive (libs : NameLibs) (guard : FolderGuard) (before after : Hierarchy μ) : Prop :=
  ∀ entry ∈ before.entries, isProtected libs guard entry.1 = true → entry ∈ after.entries

/-- The call renames a folder with a protected mailbox below it. -/
def takesProtectedAlong (libs : NameLibs) (guard : FolderGuard) (delimiter : Option Char)
    (t : Hierarchy μ) : Call → Bool
  | .renameFolder folder _ =>
      t.names.any fun name => isInferior delimiter folder name && isProtected libs guard name
  | .deleteFolder _ => false

/-! ## What the guard admits -/

/-- A letter of INBOX, in either case, is plain. -/
theorem plain_of_toAsciiLower_mem {c : Char} (h : toAsciiLower c ∈ "inbox".toList) :
    c ≠ '&' ∧ c.toNat < 128 := by
  rcases toAsciiLower_cases c with ⟨hlow, hhigh, -⟩ | hsame
  · refine ⟨?_, by omega⟩
    rintro rfl
    revert hlow
    decide
  · rw [hsame] at h
    simp only [String.reduceToList, List.mem_cons, List.not_mem_nil, or_false] at h
    rcases h with rfl | rfl | rfl | rfl | rfl <;> decide

/-- Every spelling of INBOX is normalized to the one that the guard compares. -/
theorem normalize_inbox (libs : NameLibs) {name : String}
    (h : eqIgnoreAsciiCase name "INBOX" = true) : normalizeFolderName libs name = "inbox" := by
  have hlower : name.toList.map toAsciiLower = "inbox".toList := by
    rw [eq_of_beq h]
    decide
  have hplain : ∀ c ∈ name.toList, c ≠ '&' ∧ c.toNat < 128 := by
    intro c hc
    apply plain_of_toAsciiLower_mem
    rw [← hlower]
    exact List.mem_map_of_mem hc
  have hdecode : libs.decodeUtf7Imap name = name :=
    libs.decode_plain name fun hmem => (hplain '&' hmem).1 rfl
  have hascii : (name.toList.all fun c => c.toNat < 128) = true := by
    rw [List.all_eq_true]
    exact fun c hc => decide_eq_true (hplain c hc).2
  rw [normalizeFolderName, hdecode, libs.lowercase_ascii name hascii, hlower]
  rfl

/-- A name that is not protected is not INBOX, so the server reads it as it is. -/
theorem mailboxName_of_not_protected {libs : NameLibs} {guard : FolderGuard} {name : String}
    (h : isProtected libs guard name = false) : mailboxName name = name := by
  unfold mailboxName
  rw [if_neg]
  intro hinbox
  rw [isProtected, normalize_inbox libs hinbox] at h
  cases h

theorem checkProtected_eq_ok {libs : NameLibs} {guard : FolderGuard} {folder operation : String}
    (h : guard.checkProtected libs folder operation = .ok ()) :
    isProtected libs guard folder = false := by
  obtain ⟨norm, hnorm, h⟩ := bind_eq_ok h
  have hsame : norm = normalizeFolderName libs folder := by
    unfold validateAndNormalize at hnorm
    split at hnorm
    · cases hnorm
    · exact (Except.ok.inj hnorm).symm
  split at h
  · cases h
  · rename_i hnot
    rw [isProtected, ← hsame]
    exact Bool.eq_false_iff.mpr hnot

theorem liftGuard_eq_ok {α : Type} {x : Except GuardError α} {a : α} (h : liftGuard x = .ok a) :
    x = .ok a := by
  rcases x with e | b
  · cases h
  · rw [Except.ok.inj h]

/-- What an admitted rename is. -/
theorem handle_renameFolder_eq_ok {libs : NameLibs} {guard : FolderGuard}
    {folder newFolder : String} {program : Prog Unit}
    (h : handle libs guard (.renameFolder folder newFolder) = .ok program) :
    program = renameFolder folder newFolder ∧ isProtected libs guard folder = false := by
  obtain ⟨_, -, h⟩ := bind_eq_ok h
  obtain ⟨_, -, h⟩ := bind_eq_ok h
  obtain ⟨_, hguard, h⟩ := bind_eq_ok h
  obtain ⟨_, hold, -⟩ := bind_eq_ok (liftGuard_eq_ok hguard)
  exact ⟨(Except.ok.inj h).symm, checkProtected_eq_ok hold⟩

/-- What an admitted delete is. -/
theorem handle_deleteFolder_eq_ok {libs : NameLibs} {guard : FolderGuard} {folder : String}
    {program : Prog Unit} (h : handle libs guard (.deleteFolder folder) = .ok program) :
    program = (do let _ ← status folder; deleteFolder folder) ∧
      isProtected libs guard folder = false := by
  obtain ⟨_, -, h⟩ := bind_eq_ok h
  obtain ⟨_, hguard, h⟩ := bind_eq_ok h
  obtain ⟨_, -, h⟩ := bind_eq_ok h
  exact ⟨(Except.ok.inj h).symm, checkProtected_eq_ok (liftGuard_eq_ok hguard)⟩

/-! ## The commands of a call -/

theorem sends_validateFolderName (P : Command → Prop) (name : String) :
    Sends P (validateFolderName name) := by
  unfold validateFolderName
  split
  · exact .done
  · exact .done

theorem sends_renameFolder (folder newFolder : String) :
    Sends (fun cmd => cmd = .rename folder newFolder) (renameFolder folder newFolder) := by
  apply Sends.bind (sends_validateFolderName _ folder)
  intro _
  apply Sends.bind (sends_validateFolderName _ newFolder)
  intro _
  exact Sends.bind (Sends.send rfl) fun _ => .done

theorem sends_deleteFolder (folder : String) :
    Sends (fun cmd => cmd = .status folder ∨ cmd = .delete folder)
      (do let _ ← status folder; deleteFolder folder : Prog Unit) := by
  have hstatus : Sends (fun cmd => cmd = .status folder ∨ cmd = .delete folder)
      (status folder) := by
    refine Sends.bind ?_ fun _ => Sends.send (Or.inl rfl)
    unfold validateServerFolderName
    split
    · exact .done
    · exact .done
  apply Sends.bind hstatus
  intro _
  apply Sends.bind (sends_validateFolderName _ folder)
  intro _
  exact Sends.bind (Sends.send (Or.inr rfl)) fun _ => .done

theorem Survive.refl (libs : NameLibs) (guard : FolderGuard) (t : Hierarchy μ) :
    Survive libs guard t t :=
  fun _ hmem _ => hmem

theorem Survive.trans {libs : NameLibs} {guard : FolderGuard} {t u v : Hierarchy μ}
    (h : Survive libs guard t u) (h' : Survive libs guard u v) : Survive libs guard t v :=
  fun entry hmem hprot => h' entry (h entry hmem hprot) hprot

theorem serve_status_eq_some {delimiter : Option Char} {t t' : Hierarchy μ} {name : String}
    (h : serve delimiter t (.status name) = some t') : t' = t := by
  simp only [serve] at h
  split at h
  · exact (Option.some.inj h).symm
  · cases h
  · cases h

/-- **Step.**  An admitted call that takes no protected mailbox along leaves them all,
    whether its commands are carried out or fail. -/
theorem survive_of_step {libs : NameLibs} {guard : FolderGuard} {delimiter : Option Char}
    {t t' : Hierarchy μ} {s : Step} (h : step libs guard delimiter t s = some t')
    (hok : takesProtectedAlong libs guard delimiter t s.call = false) :
    Survive libs guard t t' := by
  unfold step at h
  split at h
  · cases h
  · rename_i program hhandle
    rw [← Option.some.inj h]
    rcases hcall : s.call with ⟨folder, newFolder⟩ | ⟨folder⟩
    · rw [hcall] at hhandle hok
      obtain ⟨rfl, hfree⟩ := handle_renameFolder_eq_ok hhandle
      refine exec_keeps (serve delimiter) ?_ (sends_renameFolder folder newFolder)
        (Survive.refl libs guard t) s.answers
      rintro u cmd u' hu rfl hserve entry hmem hprot
      have hname := mailboxName_of_not_protected hfree
      rw [serve, hname] at hserve
      refine mem_rename hserve (hu entry hmem hprot) ?_ ?_
      · rintro heq
        rw [heq, hfree] at hprot
        cases hprot
      · -- the condition is about the names before the call
        have hany := List.any_eq_false.mp hok entry.1 (List.mem_map_of_mem hmem)
        rw [hprot, Bool.and_true] at hany
        exact Bool.eq_false_iff.mpr hany
    · rw [hcall] at hhandle
      obtain ⟨rfl, hfree⟩ := handle_deleteFolder_eq_ok hhandle
      refine exec_keeps (serve delimiter) ?_ (sends_deleteFolder folder)
        (Survive.refl libs guard t) s.answers
      rintro u cmd u' hu (rfl | rfl) hserve entry hmem hprot
      · rw [serve_status_eq_some hserve]
        exact hu entry hmem hprot
      · rw [serve, mailboxName_of_not_protected hfree] at hserve
        refine mem_delete hserve (hu entry hmem hprot) ?_
        rintro heq
        rw [heq, hfree] at hprot
        cases hprot

/-! ## What the guard of an account protects -/

/-- Nothing that is configured or discovered is missing from the merged list, up to
    the spelling. -/
theorem mem_merge (libs : NameLibs) {discovered configured : List String} {name : String}
    (h : (∃ p ∈ configured, normalizeFolderName libs p = normalizeFolderName libs name) ∨
      name ∈ discovered) :
    normalizeFolderName libs name ∈
      (mergeProtectedFolders libs configured discovered).map (normalizeFolderName libs) := by
  unfold mergeProtectedFolders
  induction discovered generalizing configured with
  | nil =>
      rcases h with ⟨p, hp, hsame⟩ | h
      · exact List.mem_map.mpr ⟨p, hp, hsame⟩
      · cases h
  | cons found rest ih =>
      rw [List.foldl_cons]
      apply ih
      rcases h with ⟨p, hp, hsame⟩ | h
      · left
        split
        · exact ⟨p, hp, hsame⟩
        · exact ⟨p, List.mem_append_left _ hp, hsame⟩
      · rcases List.mem_cons.mp h with rfl | h
        · left
          split
          · rename_i hdup
            obtain ⟨p, hp, hsame⟩ := List.any_eq_true.mp hdup
            exact ⟨p, hp, eq_of_beq hsame⟩
          · exact ⟨name, List.mem_append_right _ (List.mem_singleton_self _), rfl⟩
        · exact Or.inr h

theorem isProtected_of_merged {libs : NameLibs} {configured expunge : List String}
    {folders : List Folder} {name : String}
    (h : name ∈ configured ∨ name ∈ (SpecialUseMap.fromFolders folders).allDiscovered) :
    isProtected libs (resolveFolderPolicy libs configured expunge folders) name = true := by
  have hmem : normalizeFolderName libs name ∈
      (resolveFolderPolicy libs configured expunge folders).protectedNames := by
    apply mem_merge
    rcases h with h | h
    · exact Or.inl ⟨name, h, rfl⟩
    · exact Or.inr h
  rw [isProtected, FolderGuard.covers, List.contains_iff_mem.mpr hmem, Bool.or_true]

theorem slot_foldl_insert {folders : List Folder} {map : SpecialUseMap} {use : SpecialUse}
    {name : String} (h : map.slot use = some name) :
    (folders.foldl SpecialUseMap.insert map).slot use = some name := by
  induction folders generalizing map with
  | nil => exact h
  | cons folder rest ih =>
      rw [List.foldl_cons]
      apply ih
      unfold SpecialUseMap.insert
      split
      · exact h
      · rename_i other _
        split
        · rename_i hfree
          have hne : use ≠ other := by
            rintro rfl
            rw [h] at hfree
            cases hfree
          simp only [if_neg hne, h]
        · exact h

theorem mem_allDiscovered {map : SpecialUseMap} {use : SpecialUse} {name : String}
    (h : map.slot use = some name) : name ∈ map.allDiscovered := by
  refine List.mem_filterMap.mpr ⟨use, ?_, h⟩
  rcases use <;> decide

/-- The first folder of a special use is protected without being configured. -/
theorem isProtected_of_specialUse {libs : NameLibs} {configured expunge : List String}
    {before after : List Folder} {folder : Folder} {use : SpecialUse}
    (huse : folder.specialUse = some use)
    (hfirst : (SpecialUseMap.fromFolders before).slot use = none) :
    isProtected libs
      (resolveFolderPolicy libs configured expunge (before ++ folder :: after)) folder.name =
        true := by
  have hslot : (SpecialUseMap.fromFolders (before ++ folder :: after)).slot use =
      some folder.name := by
    unfold SpecialUseMap.fromFolders at hfirst ⊢
    rw [List.foldl_append, List.foldl_cons]
    apply slot_foldl_insert
    simp only [SpecialUseMap.insert, huse, hfirst, Option.isNone_none, if_true]
  apply isProtected_of_merged
  right
  exact mem_allDiscovered hslot

/-! ## Runs -/

/-- **Protected folders survive.**  In every run of renames and deletes that the guard of
    an account admits, each mailbox that the guard covers stays under its name, as long as
    no rename is of a folder with such a mailbox below it. -/
theorem protected_survive (libs : NameLibs) (configured expunge : List String)
    (folders : List Folder) (delimiter : Option Char) {before after : Hierarchy μ}
    {steps : List Step}
    (hrun : LabelledRuns.run
      (step libs (resolveFolderPolicy libs configured expunge folders) delimiter)
      before steps = some after)
    (hok : LabelledRuns.AllSteps
      (step libs (resolveFolderPolicy libs configured expunge folders) delimiter)
      (fun t s => takesProtectedAlong libs
        (resolveFolderPolicy libs configured expunge folders) delimiter t s.call = false)
      before steps) :
    Survive libs (resolveFolderPolicy libs configured expunge folders) before after := by
  refine LabelledRuns.invariant_of_allSteps ?_ (Survive.refl libs _ before) hok hrun
  intro t s u hinv hfree hstep
  exact hinv.trans (survive_of_step hstep hfree)

/-! ## A mailbox of Gmail -/

/-- Names without an ampersand and beyond ASCII, which come back as they are. -/
def plainLibs : NameLibs where
  decodeUtf7Imap := id
  toLowercase s := .ofList (s.toList.map toAsciiLower)
  decode_plain _ _ := rfl
  lowercase_ascii _ _ := rfl

/-- The guard of the default configuration there. -/
def gmailGuard : FolderGuard :=
  resolveFolderPolicy plainLibs ["INBOX", "Sent", "Drafts", "Trash"] []
    [⟨"INBOX", none⟩, ⟨"[Gmail]", none⟩, ⟨"[Gmail]/Sent Mail", some .sent⟩, ⟨"Work", none⟩]

def gmailNames : Hierarchy Nat :=
  ⟨[("INBOX", some []), ("[Gmail]", none), ("[Gmail]/Sent Mail", some [1]), ("Work", some [2])],
    by decide⟩

def renamed (old new : String) : Step := ⟨.renameFolder old new, [.completes {} []]⟩

/-- Renaming `[Gmail]` takes the protected `[Gmail]/Sent Mail` away. -/
theorem not_survive_gmail :
    ∃ after, LabelledRuns.run (step plainLibs gmailGuard (some '/')) gmailNames
        [renamed "[Gmail]" "Old"] = some after ∧
      isProtected plainLibs gmailGuard "[Gmail]/Sent Mail" = true ∧
      "[Gmail]/Sent Mail" ∈ gmailNames.names ∧ "[Gmail]/Sent Mail" ∉ after.names ∧
      ¬ Survive plainLibs gmailGuard gmailNames after := by
  have hnames : (LabelledRuns.run (step plainLibs gmailGuard (some '/')) gmailNames
      [renamed "[Gmail]" "Old"]).map Hierarchy.names =
        some ["INBOX", "Old", "Old/Sent Mail", "Work"] := by decide +kernel
  obtain ⟨after, hrun, hafter⟩ := Option.map_eq_some_iff.mp hnames
  have hprot : isProtected plainLibs gmailGuard "[Gmail]/Sent Mail" = true := by decide +kernel
  have hgone : "[Gmail]/Sent Mail" ∉ after.names := by
    rw [hafter]
    decide
  refine ⟨after, hrun, hprot, by decide, hgone, ?_⟩
  intro hsurvive
  have hmem := hsurvive ("[Gmail]/Sent Mail", some [1]) (by simp [gmailNames]) hprot
  exact hgone (List.mem_map_of_mem hmem)

/-- Renames beside it keep it. -/
theorem protected_survive_gmail :
    ∃ after, LabelledRuns.run (step plainLibs gmailGuard (some '/')) gmailNames
        [renamed "Work" "[Gmail]/Old", renamed "[Gmail]/Old" "Done"] = some after ∧
      Survive plainLibs gmailGuard gmailNames after := by
  have hsome : (LabelledRuns.run (step plainLibs gmailGuard (some '/')) gmailNames
      [renamed "Work" "[Gmail]/Old", renamed "[Gmail]/Old" "Done"]).isSome = true := by
    decide +kernel
  obtain ⟨after, hrun⟩ := Option.isSome_iff_exists.mp hsome
  refine ⟨after, hrun, protected_survive plainLibs ["INBOX", "Sent", "Drafts", "Trash"] []
    [⟨"INBOX", none⟩, ⟨"[Gmail]", none⟩, ⟨"[Gmail]/Sent Mail", some .sent⟩, ⟨"Work", none⟩]
    (some '/') hrun ?_⟩
  decide +kernel

end RustyImap.ProtectedFolders
