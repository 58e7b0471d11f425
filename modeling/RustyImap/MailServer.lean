import Mathlib.Data.List.Perm.Subperm
import Mathlib.Data.Multiset.AddSub
import Mathlib.Tactic.Abel
import Mathlib.Logic.Function.Basic
import RustyImap.MailboxTree

/-!
# A server for every command

What RFC 3501 and RFC 6851 say of the commands of `ImapOps`, over a hierarchy of
mailboxes: the messages of `MailStore` under the names of `MailboxTree`.  A mailbox
that is examined takes changes as if it were selected, and a FETCH that does not peek
sets `\Seen`; both are more than a server may do to a mailbox that is examined.

Contents are counted over all mailboxes, so that a message that moves is not lost.
-/

namespace RustyImap.MailServer

open RustyImap.ImapOps
open RustyImap.MailStore (Message UidPolicy mailboxName copies uidNextAfter contents)
open RustyImap.MailboxTree (Hierarchy)

variable {γ : Type}

/-! ## The server -/

structure Server (γ : Type) where
  tree : Hierarchy (Message γ)
  uidNext : String → Uid
  selected : Option String

/-- How UIDs are picked, what separates the levels of a name, and what is made of an
    appended message. -/
structure Kind (γ : Type) where
  policy : UidPolicy
  delimiter : Option Char
  deliver : List UInt8 → γ

/-- A change of the messages of one mailbox. -/
def adjust {μ : Type} (t : Hierarchy μ) (name : String) (f : List μ → List μ) : Hierarchy μ where
  entries := t.entries.map fun entry =>
    if entry.1 = name then (entry.1, entry.2.map f) else entry
  nodup := by
    have hnames : (t.entries.map fun entry =>
        if entry.1 = name then (entry.1, entry.2.map f) else entry).map Prod.fst =
        t.entries.map Prod.fst := by
      rw [List.map_map]
      apply List.map_congr_left
      intro entry _
      simp only [Function.comp_apply]
      split <;> rfl
    rw [hnames]
    exact t.nodup

def mailbox {μ : Type} (t : Hierarchy μ) (name : String) : Option (List μ) :=
  (t.entries.lookup name).join

namespace Server

def selectedBox (srv : Server γ) : Option (String × List (Message γ)) := do
  let name ← srv.selected
  let box ← mailbox srv.tree name
  return (name, box)

/-- Messages come in under UIDs of the mailbox they come to. -/
def receive (kind : Kind γ) (srv : Server γ) (name : String) (incoming : List (Message γ)) :
    Server γ :=
  { srv with
    tree := adjust srv.tree name fun box =>
      box ++ copies kind.policy (srv.uidNext name) incoming
    uidNext := Function.update srv.uidNext name
      (uidNextAfter kind.policy (srv.uidNext name) incoming) }

end Server

/-- A FETCH that sets `\Seen`: it asks for a body, or for the text, without a peek. -/
def marksSeen (items : String) : Bool :=
  let words := (items.toList.filter fun c => c ≠ '(' ∧ c ≠ ')').splitOn ' '
  words.any fun word =>
    "BODY[".toList.isPrefixOf word || word == "RFC822".toList || word == "RFC822.TEXT".toList

/-- A completed command; none when the server says NO or BAD. -/
def serve (kind : Kind γ) (srv : Server γ) : Command → Option (Server γ)
  | .list _ => some srv
  | .status name => (mailbox srv.tree (mailboxName name)).map fun _ => srv
  | .select name _ => (mailbox srv.tree (mailboxName name)).map fun _ =>
      { srv with selected := some (mailboxName name) }
  | .uidSearch _ => srv.selectedBox.map fun _ => srv
  | .uidFetch uids items => do
      let (name, _) ← srv.selectedBox
      if marksSeen items then
        return { srv with
          tree := adjust srv.tree name fun box => box.map (Message.store uids [.seen] .add) }
      return srv
  | .uidStore uids flags action => do
      let (name, _) ← srv.selectedBox
      return { srv with
        tree := adjust srv.tree name fun box => box.map (Message.store uids flags action) }
  | .uidCopy uids dest => do
      let (_, box) ← srv.selectedBox
      let _ ← mailbox srv.tree (mailboxName dest)
      return srv.receive kind (mailboxName dest) (box.filter fun m => m.uid ∈ uids)
  | .uidMove uids dest => do
      let (name, box) ← srv.selectedBox
      let _ ← mailbox srv.tree (mailboxName dest)
      let left := { srv with
        tree := adjust srv.tree name fun box => box.filter fun m => m.uid ∉ uids }
      return left.receive kind (mailboxName dest) (box.filter fun m => m.uid ∈ uids)
  | .uidExpunge uids => do
      let (name, _) ← srv.selectedBox
      return { srv with
        tree := adjust srv.tree name fun box =>
          box.filter fun m => !(m.deleted && decide (m.uid ∈ uids)) }
  | .expunge => do
      let (name, _) ← srv.selectedBox
      return { srv with
        tree := adjust srv.tree name fun box => box.filter fun m => !m.deleted }
  | .append name message flags keywords => do
      let _ ← mailbox srv.tree (mailboxName name)
      return srv.receive kind (mailboxName name)
        [⟨0, kind.deliver message, flags ++ keywords.map Flag.keyword⟩]
  | .create name =>
      match srv.tree.entries.lookup (mailboxName name) with
      | some (some _) => none
      | some none => do
          let tree ← Hierarchy.build (srv.tree.entries.map fun entry =>
            if entry.1 = mailboxName name then (entry.1, some []) else entry)
          return { srv with tree := tree }
      | none => do
          let tree ← Hierarchy.build (srv.tree.entries ++ [(mailboxName name, some [])])
          return { srv with tree := tree }
  | .rename oldName newName => do
      let tree ← srv.tree.rename kind.delimiter (mailboxName oldName) (mailboxName newName)
      return { srv with tree := tree }
  | .delete name => do
      let tree ← srv.tree.delete kind.delimiter (mailboxName name)
      return { srv with tree := tree }

/-! ## What is in all mailboxes -/

/-- The contents of the messages of an entry that are picked. -/
def pickedOf (p : String → Message γ → Bool) (entry : String × Option (List (Message γ))) :
    List γ :=
  contents ((entry.2.getD []).filter (p entry.1))

def picked (p : String → Message γ → Bool) (t : Hierarchy (Message γ)) : List γ :=
  t.entries.flatMap (pickedOf p)

def everything : String → Message γ → Bool := fun _ _ => true

def allContents (t : Hierarchy (Message γ)) : List γ := picked everything t

/-- Every message that is picked is still there. -/
def KeepsPicked (p : String → Message γ → Bool) (before after : Hierarchy (Message γ)) : Prop :=
  (picked p before).Subperm (allContents after)

/-- No message is lost, counted over all mailboxes. -/
def KeepsAll (before after : Hierarchy (Message γ)) : Prop := KeepsPicked everything before after

@[simp] theorem filter_everything (name : String) (box : List (Message γ)) :
    box.filter (everything name) = box := List.filter_true box

theorem pickedOf_sublist {p q : String → Message γ → Bool}
    (h : ∀ name m, p name m = true → q name m = true)
    (entry : String × Option (List (Message γ))) :
    (pickedOf p entry).Sublist (pickedOf q entry) :=
  (List.monotone_filter_right _ fun m hm => h entry.1 m hm).map _

theorem flatMap_pickedOf_subperm {p q : String → Message γ → Bool}
    (h : ∀ name m, p name m = true → q name m = true)
    (entries : List (String × Option (List (Message γ)))) :
    (entries.flatMap (pickedOf p)).Subperm (entries.flatMap (pickedOf q)) :=
  (List.Sublist.flatMap_right entries fun entry _ => pickedOf_sublist h entry).subperm

theorem everything_of {p : String → Message γ → Bool} (name : String) (m : Message γ)
    (_ : p name m = true) : everything name m = true := rfl

theorem keepsAll_refl (t : Hierarchy (Message γ)) : KeepsAll t t := List.Subperm.refl _

theorem KeepsAll.trans {t u v : Hierarchy (Message γ)} (h : KeepsAll t u) (h' : KeepsAll u v) :
    KeepsAll t v := List.Subperm.trans h h'

theorem KeepsPicked.trans {p : String → Message γ → Bool} {t u v : Hierarchy (Message γ)}
    (h : KeepsPicked p t u) (h' : KeepsAll u v) : KeepsPicked p t v := List.Subperm.trans h h'

theorem KeepsPicked.imp {p q : String → Message γ → Bool} {t u : Hierarchy (Message γ)}
    (h : KeepsPicked q t u) (himp : ∀ name m, p name m = true → q name m = true) :
    KeepsPicked p t u :=
  (flatMap_pickedOf_subperm himp t.entries).trans h

theorem KeepsAll.picked {t u : Hierarchy (Message γ)} (h : KeepsAll t u)
    (p : String → Message γ → Bool) : KeepsPicked p t u := h.imp everything_of

/-! ### One mailbox among the others -/

theorem adjust_entries {μ : Type} (t : Hierarchy μ) (name : String) (f : List μ → List μ) :
    (adjust t name f).entries = t.entries.map fun entry =>
      if entry.1 = name then (entry.1, entry.2.map f) else entry := rfl

/-- The entry of a name, and no other. -/
theorem lookup_split {μ : Type} {t : Hierarchy μ} {name : String} {value : Option (List μ)}
    (h : t.entries.lookup name = some value) :
    ∃ front back, t.entries = front ++ (name, value) :: back ∧
      (∀ entry ∈ front, entry.1 ≠ name) ∧ ∀ entry ∈ back, entry.1 ≠ name := by
  rw [List.lookup_eq_some_iff] at h
  obtain ⟨front, back, heq, -⟩ := h
  have hnodup := t.nodup
  rw [heq, List.map_append, List.map_cons, List.nodup_append, List.nodup_cons] at hnodup
  obtain ⟨-, ⟨hback, -⟩, hfront⟩ := hnodup
  refine ⟨front, back, heq, ?_, ?_⟩
  · intro entry hmem heq'
    exact hfront entry.1 (List.mem_map_of_mem hmem) name (by simp) heq'
  · intro entry hmem hname
    exact hback (List.mem_map.mpr ⟨entry, hmem, hname⟩)

/-- A change of the entries of one name leaves the others. -/
theorem map_of_ne {ε : Type} {name : String} (change : String × ε → String × ε)
    {entries : List (String × ε)} (hne : ∀ entry ∈ entries, entry.1 ≠ name) :
    (entries.map fun entry => if entry.1 = name then change entry else entry) = entries := by
  conv_rhs => rw [← List.map_id entries]
  apply List.map_congr_left
  intro entry hmem
  rw [if_neg (hne entry hmem)]
  rfl

theorem mailbox_split {μ : Type} {t : Hierarchy μ} {name : String} {box : List μ}
    (h : mailbox t name = some box) :
    ∃ front back, t.entries = front ++ (name, some box) :: back ∧
      ∀ f, (adjust t name f).entries = front ++ (name, some (f box)) :: back := by
  rw [mailbox, Option.join_eq_some_iff] at h
  obtain ⟨front, back, heq, hfront, hback⟩ := lookup_split h
  refine ⟨front, back, heq, ?_⟩
  intro f
  rw [adjust_entries, heq, List.map_append, List.map_cons, map_of_ne _ hfront, map_of_ne _ hback]
  simp

theorem mailbox_adjust {μ : Type} {t : Hierarchy μ} {name other : String} {box : List μ}
    (f : List μ → List μ) (h : mailbox t other = some box) :
    ∃ box', mailbox (adjust t name f) other = some box' := by
  rw [mailbox, Option.join_eq_some_iff, List.lookup_eq_some_iff] at h
  obtain ⟨front, back, heq, hfront⟩ := h
  refine ⟨if other = name then f box else box, ?_⟩
  rw [mailbox, Option.join_eq_some_iff, List.lookup_eq_some_iff]
  refine ⟨front.map fun entry => if entry.1 = name then (entry.1, entry.2.map f) else entry,
    back.map fun entry => if entry.1 = name then (entry.1, entry.2.map f) else entry, ?_, ?_⟩
  · rw [adjust_entries, heq, List.map_append, List.map_cons]
    split <;> simp_all
  · intro entry hmem
    obtain ⟨old, hold, rfl⟩ := List.mem_map.mp hmem
    have hne := hfront old hold
    split <;> exact hne

/-- What a change of one mailbox keeps. -/
theorem keepsPicked_adjust {p : String → Message γ → Bool} {t : Hierarchy (Message γ)}
    {name : String} {box : List (Message γ)} (h : mailbox t name = some box)
    {f : List (Message γ) → List (Message γ)}
    (hkeeps : (contents (box.filter (p name))).Subperm (contents (f box))) :
    KeepsPicked p t (adjust t name f) := by
  obtain ⟨front, back, heq, hadjust⟩ := mailbox_split h
  rw [KeepsPicked, picked, allContents, picked, heq, hadjust f]
  simp only [List.flatMap_append, List.flatMap_cons]
  refine (flatMap_pickedOf_subperm everything_of front).append
    (List.Subperm.append ?_ (flatMap_pickedOf_subperm everything_of back))
  simpa [pickedOf] using hkeeps

/-- What a mailbox holds after a change, all mailboxes hold with what it held before. -/
theorem allContents_adjust {t : Hierarchy (Message γ)} {name : String} {box : List (Message γ)}
    (h : mailbox t name = some box) (f : List (Message γ) → List (Message γ)) :
    (allContents (adjust t name f) ++ contents box).Perm (allContents t ++ contents (f box)) := by
  obtain ⟨front, back, heq, hadjust⟩ := mailbox_split h
  simp only [allContents, picked, heq, hadjust f, List.flatMap_append, List.flatMap_cons]
  simp only [pickedOf, Option.getD_some, filter_everything]
  rw [← Multiset.coe_eq_coe]
  simp only [← Multiset.coe_add]
  abel

/-! ## What one command keeps -/

/-- The messages that a command does not remove. -/
def spares (selected : Option String) : Command → String → Message γ → Bool
  | .uidExpunge uids => fun name m =>
      !(selected == some name && m.deleted && decide (m.uid ∈ uids))
  | .expunge => fun name m => !(selected == some name && m.deleted)
  | .delete victim => fun name _ => !(name == mailboxName victim)
  | .list _ | .status _ | .select _ _ | .uidSearch _ | .uidFetch _ _ | .uidStore _ _ _
  | .uidCopy _ _ | .uidMove _ _ | .append _ _ _ _ | .create _ | .rename _ _ => everything

section

variable {kind : Kind γ} {srv srv' : Server γ}

theorem selectedBox_eq_some {name : String} {box : List (Message γ)}
    (h : srv.selectedBox = some (name, box)) :
    srv.selected = some name ∧ mailbox srv.tree name = some box := by
  simp only [Server.selectedBox, Option.bind_eq_bind, Option.bind_eq_some_iff] at h
  obtain ⟨name', hselected, box', hbox, heq⟩ := h
  cases heq
  exact ⟨hselected, hbox⟩

/-- The contents of a mailbox stay. -/
theorem keepsAll_adjust {t : Hierarchy (Message γ)} {name : String} {box : List (Message γ)}
    (h : mailbox t name = some box) {f : List (Message γ) → List (Message γ)}
    (hkeeps : (contents box).Sublist (contents (f box))) : KeepsAll t (adjust t name f) := by
  apply keepsPicked_adjust h
  rw [filter_everything]
  exact hkeeps.subperm

theorem contents_append (a b : List (Message γ)) : contents (a ++ b) = contents a ++ contents b :=
  List.map_append

theorem keepsAll_receive {name : String} {box : List (Message γ)}
    (h : mailbox srv.tree name = some box) (incoming : List (Message γ)) :
    KeepsAll srv.tree (srv.receive kind name incoming).tree := by
  apply keepsAll_adjust h
  rw [contents_append]
  exact List.sublist_append_left _ _

theorem contents_filter_append (box : List (Message γ)) (uids : List Uid) :
    (contents (box.filter fun m => m.uid ∈ uids) ++
      contents (box.filter fun m => m.uid ∉ uids)).Perm (contents box) := by
  rw [← contents_append]
  apply List.Perm.map
  simpa using List.filter_append_perm (fun m : Message γ => decide (m.uid ∈ uids)) box

/-- Contents in two steps: `out` goes while `stay` stays, then `out` comes to `target`. -/
theorem eq_of_transfer {before left after box out stay target : Multiset γ}
    (hleft : left + box = before + stay) (hback : after + target = left + (target + out))
    (hbox : out + stay = box) : before = after := by
  have hafter : after = left + out := by
    apply add_right_cancel (b := target)
    rw [hback]
    abel
  apply add_right_cancel (b := stay)
  rw [← hleft, hafter, ← hbox]
  abel

/-- What leaves one mailbox comes to another, or comes back. -/
theorem keepsAll_move {name dest : String} {box target : List (Message γ)} (uids : List Uid)
    (hname : mailbox srv.tree name = some box) (hdest : mailbox srv.tree dest = some target) :
    KeepsAll srv.tree (({ srv with
      tree := adjust srv.tree name fun box => box.filter fun m => m.uid ∉ uids } :
        Server γ).receive kind dest (box.filter fun m => m.uid ∈ uids)).tree := by
  have hleft := allContents_adjust hname fun box => box.filter fun m => m.uid ∉ uids
  obtain ⟨target', htarget⟩ : ∃ target', mailbox (adjust srv.tree name fun box =>
      box.filter fun m => m.uid ∉ uids) dest = some target' :=
    mailbox_adjust _ hdest
  have hback := allContents_adjust htarget fun target =>
    target ++ copies kind.policy (srv.uidNext dest) (box.filter fun m => m.uid ∈ uids)
  have hbox := contents_filter_append box uids
  rw [contents_append, MailStore.contents_copies] at hback
  rw [← Multiset.coe_eq_coe] at hleft hback hbox
  simp only [← Multiset.coe_add] at hleft hback hbox
  rw [KeepsAll, KeepsPicked, ← allContents, ← Multiset.coe_le]
  exact (eq_of_transfer hleft hback hbox).le

theorem keepsAll_of_perm {t t' : Hierarchy (Message γ)}
    (h : (t.entries.flatMap (pickedOf everything)).Perm
      (t'.entries.flatMap (pickedOf everything))) : KeepsAll t t' :=
  h.subperm

/-- The messages of an entry, whatever its name. -/
theorem pickedOf_everything (entry : String × Option (List (Message γ))) :
    pickedOf everything entry = contents (entry.2.getD []) := by
  rw [pickedOf, filter_everything]

theorem keepsAll_create {name : String}
    (h : serve kind srv (.create name) = some srv') : KeepsAll srv.tree srv'.tree := by
  simp only [serve] at h
  split at h
  · cases h
  · rename_i hnone
    obtain ⟨tree, hbuild, heq⟩ := Option.bind_eq_some_iff.mp h
    cases heq
    obtain ⟨front, back, hentries, hfront, hback⟩ := lookup_split hnone
    apply keepsAll_of_perm
    rw [Hierarchy.build_eq_some hbuild, hentries, List.map_append, List.map_cons,
      map_of_ne _ hfront, map_of_ne _ hback]
    simp [pickedOf]
  · obtain ⟨tree, hbuild, heq⟩ := Option.bind_eq_some_iff.mp h
    cases heq
    apply keepsAll_of_perm
    rw [Hierarchy.build_eq_some hbuild]
    simp [pickedOf, contents]

theorem keepsAll_rename {t t' : Hierarchy (Message γ)} {delimiter : Option Char}
    {old new : String} (h : t.rename delimiter old new = some t') : KeepsAll t t' := by
  unfold Hierarchy.rename at h
  split at h
  · cases h
  · rename_i mailbox hmailbox
    split at h
    · cases h
    · split at h
      · rename_i hinbox
        obtain ⟨front, back, hentries, hfront, hback⟩ := lookup_split (hinbox ▸ hmailbox)
        apply keepsAll_of_perm
        rw [Hierarchy.build_eq_some h, hentries, List.map_append, List.map_cons,
          map_of_ne _ hfront, map_of_ne _ hback]
        simp only [List.flatMap_append, List.flatMap_cons, pickedOf_everything]
        rw [← Multiset.coe_eq_coe]
        simp [← Multiset.coe_add, contents]
        abel
      · apply keepsAll_of_perm
        rw [Hierarchy.build_eq_some h, List.flatMap_map]
        refine List.Perm.of_eq (congrArg (List.flatMap · t.entries) (funext fun entry => ?_))
        rw [pickedOf_everything, pickedOf_everything]

/-- The entries of other names stay. -/
theorem sublist_delete (t : Hierarchy (Message γ)) (delimiter : Option Char) (name : String)
    (entries : List (String × Option (List (Message γ)))) :
    (entries.flatMap (pickedOf fun other _ => !(other == name))).Sublist
      ((entries.filterMap (t.deletedEntry delimiter name)).flatMap (pickedOf everything)) := by
  induction entries with
  | nil => exact List.Sublist.refl _
  | cons entry rest ih =>
      rw [List.flatMap_cons, List.filterMap_cons]
      by_cases hname : entry.1 = name
      · have hnone : pickedOf (fun other _ => !(other == name)) entry = [] := by
          simp [pickedOf, hname, contents]
        rw [hnone, List.nil_append]
        split
        · exact ih
        · rw [List.flatMap_cons]
          exact ih.trans (List.sublist_append_right _ _)
      · rw [Hierarchy.deletedEntry, if_neg hname]
        rw [List.flatMap_cons]
        exact (pickedOf_sublist everything_of entry).append ih

theorem keepsPicked_delete {t t' : Hierarchy (Message γ)} {delimiter : Option Char}
    {name : String} (h : t.delete delimiter name = some t') :
    KeepsPicked (fun other _ => !(other == name)) t t' := by
  unfold Hierarchy.delete at h
  split at h
  · cases h
  · split at h
    · cases h
    · rw [KeepsPicked, allContents, picked, picked, Hierarchy.build_eq_some h]
      exact (sublist_delete t delimiter name t.entries).subperm

/-- **What a command keeps.**  All that it spares is still there, in some mailbox. -/
theorem serve_keepsPicked {cmd : Command} (h : serve kind srv cmd = some srv') :
    KeepsPicked (spares srv.selected cmd) srv.tree srv'.tree := by
  cases cmd with
  | list pattern =>
      cases h
      exact keepsAll_refl _
  | status name =>
      obtain ⟨box, -, rfl⟩ := Option.map_eq_some_iff.mp h
      exact keepsAll_refl _
  | select name readOnly =>
      obtain ⟨box, -, rfl⟩ := Option.map_eq_some_iff.mp h
      exact keepsAll_refl _
  | uidSearch query =>
      obtain ⟨box, -, rfl⟩ := Option.map_eq_some_iff.mp h
      exact keepsAll_refl _
  | uidFetch uids items =>
      obtain ⟨⟨name, box⟩, hbox, heq⟩ := Option.bind_eq_some_iff.mp h
      simp only at heq
      split at heq
      · cases heq
        apply keepsAll_adjust (selectedBox_eq_some hbox).2
        rw [MailStore.contents_store]
      · cases heq
        exact keepsAll_refl _
  | uidStore uids flags action =>
      obtain ⟨⟨name, box⟩, hbox, heq⟩ := Option.bind_eq_some_iff.mp h
      cases heq
      apply keepsAll_adjust (selectedBox_eq_some hbox).2
      rw [MailStore.contents_store]
  | uidCopy uids dest =>
      obtain ⟨⟨name, box⟩, -, hdest⟩ := Option.bind_eq_some_iff.mp h
      obtain ⟨target, htarget, heq⟩ := Option.bind_eq_some_iff.mp hdest
      cases heq
      exact keepsAll_receive htarget _
  | uidMove uids dest =>
      obtain ⟨⟨name, box⟩, hbox, hdest⟩ := Option.bind_eq_some_iff.mp h
      obtain ⟨target, htarget, heq⟩ := Option.bind_eq_some_iff.mp hdest
      cases heq
      exact keepsAll_move uids (selectedBox_eq_some hbox).2 htarget
  | uidExpunge uids =>
      obtain ⟨⟨name, box⟩, hbox, heq⟩ := Option.bind_eq_some_iff.mp h
      cases heq
      obtain ⟨hselected, hmailbox⟩ := selectedBox_eq_some hbox
      apply keepsPicked_adjust hmailbox
      simp [spares, hselected, List.Subperm.refl]
  | expunge =>
      obtain ⟨⟨name, box⟩, hbox, heq⟩ := Option.bind_eq_some_iff.mp h
      cases heq
      obtain ⟨hselected, hmailbox⟩ := selectedBox_eq_some hbox
      apply keepsPicked_adjust hmailbox
      simp [spares, hselected, List.Subperm.refl]
  | append name message flags keywords =>
      obtain ⟨target, htarget, heq⟩ := Option.bind_eq_some_iff.mp h
      cases heq
      exact keepsAll_receive htarget _
  | create name => exact keepsAll_create h
  | rename oldName newName =>
      obtain ⟨tree, htree, heq⟩ := Option.bind_eq_some_iff.mp h
      cases heq
      exact keepsAll_rename htree
  | delete name =>
      obtain ⟨tree, htree, heq⟩ := Option.bind_eq_some_iff.mp h
      cases heq
      exact keepsPicked_delete htree

/-- A command that leaves the messages and their flags as they are. -/
def reads : Command → Bool
  | .list _ | .status _ | .select _ _ | .uidSearch _ => true
  | .uidFetch _ items => !marksSeen items
  | .uidStore _ _ _ | .uidCopy _ _ | .uidMove _ _ | .uidExpunge _ | .expunge
  | .append _ _ _ _ | .create _ | .rename _ _ | .delete _ => false

theorem serve_reads {cmd : Command} (hreads : reads cmd = true)
    (h : serve kind srv cmd = some srv') : srv'.tree = srv.tree := by
  cases cmd with
  | list pattern =>
      cases h
      rfl
  | status name =>
      obtain ⟨box, -, rfl⟩ := Option.map_eq_some_iff.mp h
      rfl
  | select name readOnly =>
      obtain ⟨box, -, rfl⟩ := Option.map_eq_some_iff.mp h
      rfl
  | uidSearch query =>
      obtain ⟨box, -, rfl⟩ := Option.map_eq_some_iff.mp h
      rfl
  | uidFetch uids items =>
      obtain ⟨⟨name, box⟩, -, heq⟩ := Option.bind_eq_some_iff.mp h
      have hpeeks : marksSeen items = false := by simpa [reads] using hreads
      simp only [hpeeks] at heq
      cases heq
      rfl
  | uidStore uids flags action => cases hreads
  | uidCopy uids dest => cases hreads
  | uidMove uids dest => cases hreads
  | uidExpunge uids => cases hreads
  | expunge => cases hreads
  | append name message flags keywords => cases hreads
  | create name => cases hreads
  | rename oldName newName => cases hreads
  | delete name => cases hreads

end

end RustyImap.MailServer
