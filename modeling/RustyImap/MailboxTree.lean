import RustyImap.MailStore

/-!
# Mailbox names with a hierarchy

What RFC 3501 says of DELETE and RENAME on a server whose names have a delimiter:
DELETE removes the mailbox of that name, or only its messages where the name has
inferiors; RENAME takes the inferiors along, and of INBOX it moves the messages
only.  `exec` runs a program of `ImapOps` over any kind of server.
-/

namespace RustyImap.MailboxTree

open RustyImap.ImapOps
open RustyImap.MailStore (mailboxName Answer)

/-! ## Names -/

/-- What follows `old` in `name`, when `name` is `old` or an inferior of it. -/
def below (delimiter : Option Char) (old name : List Char) : Option (List Char) :=
  if old.isPrefixOf name then
    match name.drop old.length with
    | [] => some []
    | c :: rest => if delimiter = some c then some (c :: rest) else none
  else none

def isInferior (delimiter : Option Char) (old name : String) : Bool :=
  match below delimiter old.toList name.toList with
  | some (_ :: _) => true
  | some [] | none => false

/-- The name after a RENAME of `old` to `new`. -/
def movedName (delimiter : Option Char) (old new name : String) : String :=
  match below delimiter old.toList name.toList with
  | some rest => .ofList (new.toList ++ rest)
  | none => name

theorem below_nil {delimiter : Option Char} {old name : List Char}
    (h : below delimiter old name = some []) : name = old := by
  unfold below at h
  split at h
  · rename_i hprefix
    obtain ⟨rest, rfl⟩ := List.isPrefixOf_iff_prefix.mp hprefix
    rw [List.drop_left] at h
    rcases rest with _ | ⟨c, rest⟩
    · rw [List.append_nil]
    · simp only at h
      split at h <;> cases h
  · cases h

/-- A name that is neither `old` nor below it keeps its name. -/
theorem movedName_of_not_below {delimiter : Option Char} {old new name : String}
    (hne : name ≠ old) (hnot : isInferior delimiter old name = false) :
    movedName delimiter old new name = name := by
  unfold movedName
  unfold isInferior at hnot
  rcases hbelow : below delimiter old.toList name.toList with _ | ⟨_ | ⟨c, rest⟩⟩
  · rfl
  · exact absurd (String.toList_inj.mp (below_nil hbelow)) hne
  · rw [hbelow] at hnot
    cases hnot

/-! ## The hierarchy -/

/-- The names of a server, each with its messages; a name with `none` cannot be
    selected. -/
structure Hierarchy (μ : Type) where
  entries : List (String × Option (List μ))
  nodup : (entries.map Prod.fst).Nodup

namespace Hierarchy

variable {μ : Type}

def names (t : Hierarchy μ) : List String := t.entries.map Prod.fst

/-- The tree of some entries, unless a name occurs twice. -/
def build (entries : List (String × Option (List μ))) : Option (Hierarchy μ) :=
  if h : (entries.map Prod.fst).Nodup then some ⟨entries, h⟩ else none

theorem build_eq_some {entries : List (String × Option (List μ))} {t : Hierarchy μ}
    (h : build entries = some t) : t.entries = entries := by
  unfold build at h
  split at h
  · rw [← Option.some.inj h]
  · cases h

def hasInferiors (t : Hierarchy μ) (delimiter : Option Char) (name : String) : Bool :=
  t.names.any fun other => isInferior delimiter name other

/-- The entry after a DELETE of `name`, if any is left. -/
def deletedEntry (t : Hierarchy μ) (delimiter : Option Char) (name : String)
    (entry : String × Option (List μ)) : Option (String × Option (List μ)) :=
  if entry.1 = name then
    if t.hasInferiors delimiter name then some (name, none) else none
  else some entry

/-- DELETE; a name without messages that has inferiors is refused, and so is INBOX. -/
def delete (t : Hierarchy μ) (delimiter : Option Char) (name : String) : Option (Hierarchy μ) :=
  match t.entries.lookup name with
  | none => none
  | some mailbox =>
      if name = "INBOX" ∨ mailbox.isNone ∧ t.hasInferiors delimiter name = true then none
      else build (t.entries.filterMap (t.deletedEntry delimiter name))

/-- RENAME; one that would give a name twice is refused. -/
def rename (t : Hierarchy μ) (delimiter : Option Char) (old new : String) : Option (Hierarchy μ) :=
  match t.entries.lookup old with
  | none => none
  | some mailbox =>
      if new ∈ t.names then none
      else if old = "INBOX" then
        build ((t.entries.map fun entry =>
          if entry.1 = "INBOX" then (entry.1, some []) else entry) ++ [(new, mailbox)])
      else build (t.entries.map fun entry => (movedName delimiter old new entry.1, entry.2))

end Hierarchy

/-- A completed command; none when the server says NO or BAD. -/
def serve {μ : Type} (delimiter : Option Char) (t : Hierarchy μ) : Command → Option (Hierarchy μ)
  | .status name =>
      match t.entries.lookup (mailboxName name) with
      | some (some _) => some t
      | some none | none => none
  | .rename oldName newName => t.rename delimiter (mailboxName oldName) (mailboxName newName)
  | .delete name => t.delete delimiter (mailboxName name)
  -- no part of a rename or a delete of a folder
  | .list _ | .select _ _ | .uidSearch _ | .uidFetch _ _ | .uidStore _ _ _ | .uidMove _ _
  | .uidCopy _ _ | .uidExpunge _ | .expunge | .append _ _ _ _ | .create _ => none

/-! ## Runs of a program -/

section

variable {σ α : Type} (serves : σ → Command → Option σ)

/-- The state after a program; a program that gets no more answers is dropped. -/
def exec : Prog α → σ → List Answer → σ
  | .done _, s, _ => s
  | .command _ _ _, s, [] => s
  | .command cmd _ next, s, .completes reply _ :: rest =>
      match serves s cmd with
      | some s' => exec (next reply) s' rest
      | none => s
  | .command cmd _ _, s, .fails _ applied :: _ => if applied then (serves s cmd).getD s else s
  | .stream _ _ _, s, [] => s
  | .stream cmd _ next, s, .completes _ items :: rest =>
      match serves s cmd with
      | some s' => exec (next items) s' rest
      | none => s
  | .stream cmd _ _, s, .fails _ applied :: _ => if applied then (serves s cmd).getD s else s

/-- Every command that the program can send is a `P`. -/
inductive Sends (P : Command → Prop) : Prog α → Prop where
  | done {result : Except ImapError α} : Sends P (.done result)
  | command {cmd : Command} {onError : AsyncImapError → ImapError} {next : Reply → Prog α}
      (hcmd : P cmd) (hnext : ∀ reply, Sends P (next reply)) : Sends P (.command cmd onError next)
  | stream {cmd : Command} {check : List Item → Item → Option ImapError}
      {next : List Item → Prog α} (hcmd : P cmd) (hnext : ∀ items, Sends P (next items)) :
      Sends P (.stream cmd check next)

theorem Sends.bind {β : Type} {P : Command → Prop} {p : Prog α} {f : α → Prog β}
    (h : Sends P p) (hf : ∀ a, Sends P (f a)) : Sends P (p >>= f) := by
  induction h with
  | @done result =>
      rcases result with e | a
      · exact .done
      · exact hf a
  | command hcmd _ ih => exact .command hcmd ih
  | stream hcmd _ ih => exact .stream hcmd ih

theorem Sends.send {P : Command → Prop} {cmd : Command} {onError : AsyncImapError → ImapError}
    (hcmd : P cmd) : Sends P (send cmd onError) :=
  .command hcmd fun _ => .done

/-- **Frame rule.**  What every command of a program keeps, the program keeps, however
    its commands go. -/
theorem exec_keeps {P : Command → Prop} {Inv : σ → Prop}
    (hkeeps : ∀ s cmd s', Inv s → P cmd → serves s cmd = some s' → Inv s')
    {p : Prog α} (hsends : Sends P p) {s : σ} (hinv : Inv s) (answers : List Answer) :
    Inv (exec serves p s answers) := by
  have hgetD : ∀ {s cmd}, Inv s → P cmd → Inv ((serves s cmd).getD s) := by
    intro s cmd hinv hcmd
    rcases hserve : serves s cmd with _ | s'
    · exact hinv
    · exact hkeeps s cmd s' hinv hcmd hserve
  induction hsends generalizing s answers with
  | done => exact hinv
  | command hcmd _ ih =>
      rcases answers with _ | ⟨⟨reply, items⟩ | ⟨e, applied⟩, rest⟩
      · exact hinv
      · simp only [exec]
        split
        · rename_i s' hserve
          exact ih reply (hkeeps _ _ s' hinv hcmd hserve) rest
        · exact hinv
      · simp only [exec]
        split
        · exact hgetD hinv hcmd
        · exact hinv
  | stream hcmd _ ih =>
      rcases answers with _ | ⟨⟨reply, items⟩ | ⟨e, applied⟩, rest⟩
      · exact hinv
      · simp only [exec]
        split
        · rename_i s' hserve
          exact ih items (hkeeps _ _ s' hinv hcmd hserve) rest
        · exact hinv
      · simp only [exec]
        split
        · exact hgetD hinv hcmd
        · exact hinv

end

/-! ## What one command leaves alone -/

section

variable {μ : Type} {delimiter : Option Char} {t t' : Hierarchy μ}
variable {entry : String × Option (List μ)}

/-- DELETE leaves every entry of another name. -/
theorem mem_delete {name : String} (h : t.delete delimiter name = some t')
    (hmem : entry ∈ t.entries) (hne : entry.1 ≠ name) : entry ∈ t'.entries := by
  unfold Hierarchy.delete at h
  split at h
  · cases h
  · split at h
    · cases h
    · rw [Hierarchy.build_eq_some h]
      refine List.mem_filterMap.mpr ⟨entry, hmem, ?_⟩
      rw [Hierarchy.deletedEntry, if_neg hne]

/-- RENAME leaves every entry that is neither of the name nor below it. -/
theorem mem_rename {old new : String} (h : t.rename delimiter old new = some t')
    (hmem : entry ∈ t.entries) (hne : entry.1 ≠ old)
    (hnot : isInferior delimiter old entry.1 = false) : entry ∈ t'.entries := by
  unfold Hierarchy.rename at h
  split at h
  · cases h
  · split at h
    · cases h
    · split at h
      · rename_i hinbox
        rw [Hierarchy.build_eq_some h]
        refine List.mem_append_left _ (List.mem_map.mpr ⟨entry, hmem, ?_⟩)
        rw [if_neg (hinbox ▸ hne)]
      · rw [Hierarchy.build_eq_some h]
        refine List.mem_map.mpr ⟨entry, hmem, ?_⟩
        rw [movedName_of_not_below hne hnot]

end

end RustyImap.MailboxTree
