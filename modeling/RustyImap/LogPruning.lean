import Mathlib
import RustyImap.AuditWorker

/-!
# Pruning rotated logs (`rimap-audit/src/writer/rotation.rs`)

`prune_rotated_siblings`, run after a rotation, on the directory of the active
log.  A file name is a sequence of bytes of which some are UTF-8; only those
are looked at.  The result is the list of files handed to `remove_file`, in
that order; a removal that fails is logged and leaves the file.

The candidates are all regular files whose name begins with the active name and
a dot.  The names a rotation can give (`rotated_path`, `unique_rotated_path`)
are some of them, so what else matches is ranked and removed together with the
rotated logs.
-/

namespace RustyImap.LogPruning

open AuditWorker (Disk OffsetDateTime rotatedPath candidates uniqueRotatedPath)

/-! ## The directory -/

inductive OsName where
  | utf8 (s : String)
  | other (bytes : List UInt8)     -- not UTF-8
deriving DecidableEq, Repr

/-- `OsString::push`; text after something that is not UTF-8 does not mend it. -/
def OsName.push (name : OsName) (suffix : String) : OsName :=
  match name with
  | .utf8 s => .utf8 (s ++ suffix)
  | .other bytes => .other (bytes ++ suffix.toUTF8.data.toList)

def OsName.toStr : OsName → Option String
  | .utf8 s => some s
  | .other _ => none

/-- What `symlink_metadata` returns; times in nanoseconds from the epoch. -/
structure Metadata where
  isFile : Bool
  modified : Option Int
deriving DecidableEq, Repr

/-- An entry that cannot be listed or examined has no metadata. -/
structure DirEntry where
  name : OsName
  metadata : Option Metadata
deriving DecidableEq, Repr

structure ActivePath where
  parent : Option String
  fileName : Option OsName
deriving DecidableEq, Repr

def DirEntry.isFile (e : DirEntry) : Bool := e.metadata.any (·.isFile)

/-- `meta.modified().unwrap_or(UNIX_EPOCH)`. -/
def DirEntry.mtime (e : DirEntry) : Int := ((e.metadata.bind (·.modified))).getD 0

/-- `SystemTime::checked_sub`: the seconds are 64 bits wide. -/
def checkedSub (now : Int) (secs : Nat) : Option Int :=
  let t := now - secs * 1000000000
  if -(2 ^ 63) * 1000000000 ≤ t then some t else none

def retentionCutoff (now : Int) (retentionSeconds : Option Nat) : Option Int :=
  retentionSeconds.map fun secs => (checkedSub now secs).getD 0

def beyondTime (cutoff : Option Int) (e : DirEntry) : Bool := cutoff.any fun c => e.mtime < c

/-- The entries that are ranked: the prefix, not the active log, a regular file. -/
def isSibling (activeName : String) (e : DirEntry) : Bool :=
  match e.name.toStr with
  | none => false
  | some name =>
      (activeName ++ ".").toList.isPrefixOf name.toList && name != activeName && e.isFile

/-- `sort_by` newest first; equal times stay in the order of the listing. -/
def siblings (activeName : String) (dir : List DirEntry) : List DirEntry :=
  (dir.filter (isSibling activeName)).insertionSort fun a b => b.mtime ≤ a.mtime

/-- The name that the pruner goes by, where it goes on at all. -/
def ActivePath.pruneName (active : ActivePath) : Option String :=
  match active.parent with
  | some parent => if parent = "" then none else active.fileName.bind OsName.toStr
  | none => none

/-- `prune_rotated_siblings`; `readable` is whether the directory can be read. -/
def pruneRotatedSiblings (active : ActivePath) (readable : Bool) (now : Int) (keep : Nat)
    (retentionSeconds : Option Nat) (dir : List DirEntry) : List DirEntry :=
  match active.pruneName with
  | none => []
  | some activeName =>
      if !readable then []
      else
        let cutoff := retentionCutoff now retentionSeconds
        ((siblings activeName dir).zipIdx.filter fun (e, idx) =>
          decide (keep ≤ idx) || beyondTime cutoff e).map Prod.fst

/-! ## The names of rotated logs -/

def isLeapYear (year : Nat) : Bool := year % 4 == 0 && (year % 100 != 0 || year % 400 == 0)

def daysInMonth (year month : Nat) : Nat :=
  if month = 2 then (if isLeapYear year then 29 else 28)
  else if month = 4 ∨ month = 6 ∨ month = 9 ∨ month = 11 then 30
  else 31

structure ValidDateTime (t : OffsetDateTime) : Prop where
  year : t.year ≤ 9999
  month : 1 ≤ t.month ∧ t.month ≤ 12
  day : 1 ≤ t.day ∧ t.day ≤ daysInMonth t.year t.month
  hour : t.hour < 24
  minute : t.minute < 60
  second : t.second < 60
  millisecond : t.millisecond < 1000

/-- A name that `unique_rotated_path` can give to the active log. -/
def IsRotationName (active : ActivePath) (name : OsName) : Prop :=
  ∃ now : OffsetDateTime, ValidDateTime now ∧ ∃ suffix ∈ candidates (rotatedPath "" now),
    name = (active.fileName.getD (.utf8 "")).push suffix

/-- A rotated log: the name and the kind of one. -/
def IsRotation (active : ActivePath) (e : DirEntry) : Prop :=
  IsRotationName active e.name ∧ e.isFile = true

theorem rotatedPath_eq (active : String) (now : OffsetDateTime) :
    rotatedPath active now = active ++ rotatedPath "" now := by
  simp [rotatedPath, String.append_assoc]

/-- The names that a rotation tries are the rotation names. -/
theorem isRotationName_of_candidates {active : ActivePath} {activeName name : String}
    (hactive : active.fileName = some (.utf8 activeName)) {now : OffsetDateTime}
    (hnow : ValidDateTime now) (h : name ∈ candidates (rotatedPath activeName now)) :
    IsRotationName active (.utf8 name) := by
  refine ⟨now, hnow, ?_⟩
  rw [rotatedPath_eq] at h
  rw [hactive]
  rcases List.mem_cons.mp h with rfl | h
  · exact ⟨rotatedPath "" now, by simp [candidates], rfl⟩
  · obtain ⟨counter, hcounter, rfl⟩ := List.mem_map.mp h
    refine ⟨rotatedPath "" now ++ "-" ++ toString counter, ?_, ?_⟩
    · exact List.mem_cons_of_mem _ (List.mem_map.mpr ⟨counter, hcounter, rfl⟩)
    · simp [OsName.push, String.append_assoc]

/-- So is the name that the rotation settles on. -/
theorem isRotationName_uniqueRotatedPath {active : ActivePath} {activeName : String}
    (hactive : active.fileName = some (.utf8 activeName)) (disk : Disk) {now : OffsetDateTime}
    (hnow : ValidDateTime now) :
    IsRotationName active (.utf8 (uniqueRotatedPath disk activeName now)) := by
  refine isRotationName_of_candidates hactive hnow ?_
  unfold uniqueRotatedPath
  cases hfind : (candidates (rotatedPath activeName now)).find?
      fun name => !disk.nameExists name with
  | none => exact List.mem_cons_self
  | some name => exact List.mem_of_find?_eq_some hfind

theorem mem_candidates {base suffix : String} (h : suffix ∈ candidates base) :
    ∃ more, suffix = base ++ more := by
  rcases List.mem_cons.mp h with rfl | h
  · exact ⟨"", by simp⟩
  · obtain ⟨counter, -, rfl⟩ := List.mem_map.mp h
    exact ⟨"-" ++ toString counter, by rw [String.append_assoc]⟩

/-- Behind the active name stand a dot and, somewhere, the `Z` of the stamp. -/
theorem suffix_of_candidates {now : OffsetDateTime} {suffix : String}
    (h : suffix ∈ candidates (rotatedPath "" now)) :
    ∃ rest, suffix.toList = '.' :: rest ∧ 'Z' ∈ rest := by
  obtain ⟨more, rfl⟩ := mem_candidates h
  refine ⟨_, by simp [rotatedPath]; rfl, ?_⟩
  simp

theorem pruneName_eq {active : ActivePath} {activeName : String}
    (hname : active.pruneName = some activeName) : active.fileName = some (.utf8 activeName) := by
  unfold ActivePath.pruneName at hname
  split at hname
  · split at hname
    · cases hname
    · obtain ⟨file, hfile, hstr⟩ := Option.bind_eq_some_iff.mp hname
      cases file with
      | utf8 s =>
          obtain rfl := Option.some.inj hstr
          exact hfile
      | other bytes => cases hstr
  · cases hname

/-- A rotation is among the ranked files. -/
theorem isSibling_of_isRotation {active : ActivePath} {activeName : String} {e : DirEntry}
    (hname : active.pruneName = some activeName) (h : IsRotation active e) :
    isSibling activeName e = true := by
  obtain ⟨⟨now, -, suffix, hsuffix, hrotated⟩, hfile⟩ := h
  have hactive := pruneName_eq hname
  obtain ⟨rest, hdot, -⟩ := suffix_of_candidates hsuffix
  have hstr : e.name.toStr = some (activeName ++ suffix) := by
    rw [hrotated, hactive]
    rfl
  have hbegins : (activeName ++ ".").toList.isPrefixOf (activeName ++ suffix).toList = true := by
    rw [List.isPrefixOf_iff_prefix]
    exact ⟨rest, by simp [hdot]⟩
  have hne : (activeName ++ suffix != activeName) = true := by
    rw [bne_iff_ne]
    intro heq
    have hlist := congrArg String.toList heq
    rw [String.toList_append, hdot] at hlist
    simp at hlist
  unfold isSibling
  rw [hstr]
  simp only [hbegins, hne, hfile, Bool.and_self]

/-! ## What is removed -/

/-- The part of the ranking that is given up: the expired among the first
    `keep`, and all that follow. -/
theorem zipIdx_surplus {α : Type} (expired : α → Bool) (keep : Nat) (ranked : List α) (start : Nat)
    (hstart : start ≤ keep) :
    (((ranked.zipIdx start).filter fun (e, idx) => decide (keep ≤ idx) || expired e).map Prod.fst)
      = (ranked.take (keep - start)).filter expired ++ ranked.drop (keep - start) := by
  induction ranked generalizing start with
  | nil => simp
  | cons e rest ih =>
      by_cases hlast : start = keep
      · subst hlast
        have hall : ∀ p ∈ (e :: rest).zipIdx start,
            (decide (start ≤ p.2) || expired p.1) = true := by
          rintro ⟨x, idx⟩ hmem
          simp [List.le_snd_of_mem_zipIdx hmem]
        rw [List.filter_eq_self.mpr hall]
        simp
      · have hlt : start + 1 ≤ keep := by omega
        have hsub : keep - start = (keep - (start + 1)) + 1 := by omega
        have hkeep : decide (keep ≤ start) = false := by simpa using by omega
        rw [List.zipIdx_cons, hsub, List.take_succ_cons, List.drop_succ_cons, List.filter_cons,
          List.filter_cons]
        cases hexp : expired e with
        | true => simp [hkeep, hexp, ih (start + 1) hlt]
        | false => simp [hkeep, hexp, ih (start + 1) hlt]

theorem pruneRotatedSiblings_eq {active : ActivePath} {activeName : String}
    (hname : active.pruneName = some activeName) (now : Int) (keep : Nat)
    (retentionSeconds : Option Nat) (dir : List DirEntry) :
    pruneRotatedSiblings active true now keep retentionSeconds dir
      = ((siblings activeName dir).take keep).filter
          (beyondTime (retentionCutoff now retentionSeconds))
        ++ (siblings activeName dir).drop keep := by
  unfold pruneRotatedSiblings
  rw [hname]
  exact zipIdx_surplus (beyondTime (retentionCutoff now retentionSeconds)) keep
    (siblings activeName dir) 0 (Nat.zero_le keep)

theorem mem_siblings {activeName : String} {dir : List DirEntry} {e : DirEntry} :
    e ∈ siblings activeName dir ↔ e ∈ dir ∧ isSibling activeName e = true := by
  unfold siblings
  rw [List.mem_insertionSort, List.mem_filter]

theorem siblings_nodup {activeName : String} {dir : List DirEntry} (hdir : dir.Nodup) :
    (siblings activeName dir).Nodup :=
  (List.perm_insertionSort _ _).nodup_iff.mpr (hdir.filter _)

theorem siblings_sorted (activeName : String) (dir : List DirEntry) :
    (siblings activeName dir).Pairwise fun a b => b.mtime ≤ a.mtime := by
  have htotal : ∀ a b : DirEntry, b.mtime ≤ a.mtime ∨ a.mtime ≤ b.mtime :=
    fun a b => Int.le_total b.mtime a.mtime
  have htrans : ∀ a b c : DirEntry, b.mtime ≤ a.mtime → c.mtime ≤ b.mtime → c.mtime ≤ a.mtime :=
    fun a b c hab hbc => Int.le_trans hbc hab
  exact @List.pairwise_insertionSort DirEntry (fun a b => b.mtime ≤ a.mtime) _ ⟨htotal⟩ ⟨htrans⟩ _

/-- What ranks above an unexpired file is unexpired. -/
theorem not_beyondTime_of_newer {cutoff : Option Int} {a b : DirEntry} (hle : b.mtime ≤ a.mtime)
    (hb : beyondTime cutoff b = false) : beyondTime cutoff a = false := by
  cases cutoff with
  | none => rfl
  | some c =>
      have hcb : ¬ b.mtime < c := by simpa [beyondTime] using hb
      have hca : ¬ a.mtime < c := by omega
      simpa [beyondTime] using hca

theorem mem_take_or_drop {α : Type} {keep : Nat} {ranked : List α} {e : α} :
    e ∈ ranked.take keep ∨ e ∈ ranked.drop keep ↔ e ∈ ranked := by
  rw [← List.mem_append, List.take_append_drop]

/-- The first of a ranking is at least as new as what comes after them. -/
theorem newer_of_take_drop {activeName : String} {dir : List DirEntry} {keep : Nat} {a b : DirEntry}
    (ha : a ∈ (siblings activeName dir).take keep) (hb : b ∈ (siblings activeName dir).drop keep) :
    b.mtime ≤ a.mtime := by
  have hsorted := siblings_sorted activeName dir
  rw [← List.take_append_drop keep (siblings activeName dir), List.pairwise_append] at hsorted
  exact hsorted.2.2 a ha b hb

/-! ## Only surplus rotations

What pruning is for, in terms of the rotations alone. -/

open Classical in
/-- The rotated logs of a directory. -/
noncomputable def rotations (active : ActivePath) (dir : List DirEntry) : List DirEntry :=
  dir.filter fun e => decide (IsRotation active e)

/-- `kept` is made of the `keep` newest of `all` that are inside the window: no
    more than so many, and a file inside it that is not among them is no newer
    than any of them, and finds them complete. -/
structure KeepNewest (keep : Nat) (cutoff : Option Int) (all kept : List DirEntry) : Prop where
  nodup : kept.Nodup
  inside : ∀ e ∈ kept, e ∈ all ∧ beyondTime cutoff e = false
  bounded : kept.length ≤ keep
  newest : ∀ e ∈ all, beyondTime cutoff e = false → e ∉ kept →
    kept.length = keep ∧ ∀ k ∈ kept, e.mtime ≤ k.mtime

structure PrunesOnlySurplus (active : ActivePath) (keep : Nat) (cutoff : Option Int)
    (dir removed : List DirEntry) : Prop where
  only_rotations : ∀ e ∈ removed, IsRotation active e ∧ active.fileName ≠ some e.name
  keeps_newest : ∃ kept, KeepNewest keep cutoff (rotations active dir) kept ∧
    ∀ e ∈ rotations active dir, e ∉ removed ↔ e ∈ kept

theorem mem_rotations {active : ActivePath} {dir : List DirEntry} {e : DirEntry} :
    e ∈ rotations active dir ↔ e ∈ dir ∧ IsRotation active e := by
  simp [rotations]

/-- Everything that is ranked is a rotation, or the ranking has room: what is
    inside the window fits, and what is outside is a rotation. -/
def OnlyRotationsGiveWay (active : ActivePath) (keep : Nat) (cutoff : Option Int)
    (ranked : List DirEntry) : Prop :=
  (∀ e ∈ ranked, IsRotation active e) ∨
    ((∀ e ∈ ranked, beyondTime cutoff e = true → IsRotation active e) ∧
      (ranked.filter fun e => !beyondTime cutoff e).length ≤ keep)

theorem name_ne_of_isSibling {activeName : String} {e : DirEntry}
    (h : isSibling activeName e = true) : e.name ≠ .utf8 activeName := by
  intro heq
  unfold isSibling at h
  rw [heq] at h
  simp [OsName.toStr] at h

/-- With room in the ranking for everything inside the window, what lies below
    the room is outside of it. -/
theorem beyondTime_of_room {activeName : String} {dir : List DirEntry} {keep : Nat}
    {cutoff : Option Int}
    (hroom : ((siblings activeName dir).filter fun e => !beyondTime cutoff e).length ≤ keep)
    {e : DirEntry} (he : e ∈ (siblings activeName dir).drop keep) :
    beyondTime cutoff e = true := by
  by_contra hinside
  have hinside : beyondTime cutoff e = false := by simpa using hinside
  have hfirst : ((siblings activeName dir).take keep).filter (fun e => !beyondTime cutoff e)
      = (siblings activeName dir).take keep := by
    refine List.filter_eq_self.mpr fun a ha => ?_
    rw [not_beyondTime_of_newer (newer_of_take_drop ha he) hinside]
    rfl
  have hlater : 0 < (((siblings activeName dir).drop keep).filter
      fun e => !beyondTime cutoff e).length :=
    List.length_pos_of_mem (List.mem_filter.mpr ⟨he, by rw [hinside]; rfl⟩)
  have hlong : keep < (siblings activeName dir).length := by
    have := List.length_pos_of_mem he
    rw [List.length_drop] at this
    omega
  rw [← List.take_append_drop keep (siblings activeName dir), List.filter_append,
    List.length_append, hfirst, List.length_take] at hroom
  omega

section

variable {active : ActivePath} {activeName : String} {keep : Nat} {cutoff : Option Int}
  {dir : List DirEntry}

theorem mem_siblings_of_mem_rotations (hname : active.pruneName = some activeName) {e : DirEntry}
    (he : e ∈ rotations active dir) : e ∈ siblings activeName dir := by
  obtain ⟨hedir, herot⟩ := mem_rotations.mp he
  exact mem_siblings.mpr ⟨hedir, isSibling_of_isRotation hname herot⟩

/-- Something else among the first leaves less room for what is kept. -/
theorem KeepNewest.length_lt_of_foreign {kept : List DirEntry} {foreign : DirEntry}
    (hkept : KeepNewest keep cutoff (rotations active dir) kept)
    (hname : active.pruneName = some activeName)
    (hstays : ∀ e ∈ kept, e ∉ (siblings activeName dir).drop keep)
    (hforeign : foreign ∈ (siblings activeName dir).take keep)
    (hnot : ¬IsRotation active foreign) : kept.length < keep := by
  have hsub : foreign :: kept ⊆ (siblings activeName dir).take keep := by
    intro k hk
    rcases List.mem_cons.mp hk with rfl | hk
    · exact hforeign
    · have hsibling := mem_siblings_of_mem_rotations hname (hkept.inside k hk).1
      exact (mem_take_or_drop.mpr hsibling).resolve_right (hstays k hk)
  have hnodup : (foreign :: kept).Nodup := by
    refine List.nodup_cons.mpr ⟨fun hin => hnot ?_, hkept.nodup⟩
    exact (mem_rotations.mp (hkept.inside foreign hin).1).2
  have hle := (List.subperm_of_subset hnodup hsub).length_le
  rw [List.length_cons, List.length_take] at hle
  omega

theorem OnlyRotationsGiveWay.of_beyondTime
    (hroom : OnlyRotationsGiveWay active keep cutoff (siblings activeName dir)) {e : DirEntry}
    (he : e ∈ siblings activeName dir) (hexp : beyondTime cutoff e = true) :
    IsRotation active e := by
  rcases hroom with hall | ⟨hexpired, -⟩
  · exact hall e he
  · exact hexpired e he hexp

theorem OnlyRotationsGiveWay.of_drop
    (hroom : OnlyRotationsGiveWay active keep cutoff (siblings activeName dir)) {e : DirEntry}
    (he : e ∈ (siblings activeName dir).drop keep) : IsRotation active e := by
  have hsibling : e ∈ siblings activeName dir := mem_take_or_drop.mp (.inr he)
  rcases hroom with hall | ⟨hexpired, hfits⟩
  · exact hall e hsibling
  · exact hexpired e hsibling (beyondTime_of_room hfits he)

open Classical in
/-- The rotations that stay. -/
noncomputable def staying (active : ActivePath) (activeName : String) (keep : Nat)
    (cutoff : Option Int) (dir : List DirEntry) : List DirEntry :=
  ((siblings activeName dir).take keep).filter
    fun e => !beyondTime cutoff e && decide (IsRotation active e)

theorem mem_staying {e : DirEntry} :
    e ∈ staying active activeName keep cutoff dir ↔
      e ∈ (siblings activeName dir).take keep ∧ beyondTime cutoff e = false ∧
        IsRotation active e := by
  simp [staying]

theorem isRotation_of_removed (hname : active.pruneName = some activeName)
    (hroom : OnlyRotationsGiveWay active keep cutoff (siblings activeName dir)) {e : DirEntry}
    (he : e ∈ ((siblings activeName dir).take keep).filter (beyondTime cutoff) ++
      (siblings activeName dir).drop keep) :
    IsRotation active e ∧ active.fileName ≠ some e.name := by
  have hsibling : e ∈ siblings activeName dir ∧ IsRotation active e := by
    rcases List.mem_append.mp he with he | he
    · obtain ⟨htake, hexp⟩ := List.mem_filter.mp he
      have hsib := mem_take_or_drop.mp (.inl htake)
      exact ⟨hsib, hroom.of_beyondTime hsib hexp⟩
    · exact ⟨mem_take_or_drop.mp (.inr he), hroom.of_drop he⟩
  refine ⟨hsibling.2, fun heq => ?_⟩
  rw [pruneName_eq hname] at heq
  exact name_ne_of_isSibling (mem_siblings.mp hsibling.1).2 (Option.some.inj heq).symm

/-- A rotation inside the window stays behind only when `keep` newer ones are
    kept: otherwise what is ranked below the room is outside the window. -/
theorem length_staying (hroom : OnlyRotationsGiveWay active keep cutoff (siblings activeName dir))
    {e : DirEntry} (hedrop : e ∈ (siblings activeName dir).drop keep)
    (hinside : beyondTime cutoff e = false) :
    (staying active activeName keep cutoff dir).length = keep := by
  rcases hroom with hall | ⟨-, hfits⟩
  · have hself : staying active activeName keep cutoff dir =
        (siblings activeName dir).take keep := by
      refine List.filter_eq_self.mpr fun a ha => ?_
      have hain := not_beyondTime_of_newer (newer_of_take_drop ha hedrop) hinside
      simp [hain, hall a (mem_take_or_drop.mp (.inl ha))]
    have hlong := List.length_pos_of_mem hedrop
    rw [List.length_drop] at hlong
    rw [hself, List.length_take]
    omega
  · rw [beyondTime_of_room hfits hedrop] at hinside
    cases hinside

theorem keepNewest_staying (hdir : dir.Nodup) (hname : active.pruneName = some activeName)
    (hroom : OnlyRotationsGiveWay active keep cutoff (siblings activeName dir)) :
    KeepNewest keep cutoff (rotations active dir)
      (staying active activeName keep cutoff dir) where
  nodup := ((siblings_nodup hdir).sublist (List.take_sublist _ _)).filter _
  inside e he := by
    obtain ⟨htake, hinside, hrot⟩ := mem_staying.mp he
    have hsibling : e ∈ siblings activeName dir := mem_take_or_drop.mp (.inl htake)
    exact ⟨mem_rotations.mpr ⟨(mem_siblings.mp hsibling).1, hrot⟩, hinside⟩
  bounded := Nat.le_trans (List.length_filter_le _ _) (List.length_take_le _ _)
  newest e he hinside hout := by
    have hedrop : e ∈ (siblings activeName dir).drop keep := by
      rcases mem_take_or_drop.mpr (mem_siblings_of_mem_rotations hname he) with htake | hdrop
      · exact absurd (mem_staying.mpr ⟨htake, hinside, (mem_rotations.mp he).2⟩) hout
      · exact hdrop
    exact ⟨length_staying hroom hedrop hinside,
      fun k hk => newer_of_take_drop (mem_staying.mp hk).1 hedrop⟩

theorem not_removed_iff_staying (hdir : dir.Nodup) (hname : active.pruneName = some activeName)
    {e : DirEntry} (he : e ∈ rotations active dir) :
    e ∉ ((siblings activeName dir).take keep).filter (beyondTime cutoff) ++
        (siblings activeName dir).drop keep ↔
      e ∈ staying active activeName keep cutoff dir := by
  have hesib : e ∈ siblings activeName dir := mem_siblings_of_mem_rotations hname he
  have hdisjoint : e ∈ (siblings activeName dir).take keep →
      e ∉ (siblings activeName dir).drop keep := by
    have hnodup : (siblings activeName dir).Nodup := siblings_nodup hdir
    rw [← List.take_append_drop keep (siblings activeName dir), List.nodup_append] at hnodup
    intro ha hb
    exact hnodup.2.2 e ha e hb rfl
  rw [List.mem_append, List.mem_filter, mem_staying]
  constructor
  · intro hstays
    rcases mem_take_or_drop.mpr hesib with htake | hdrop
    · refine ⟨htake, ?_, (mem_rotations.mp he).2⟩
      by_contra hexp
      exact hstays (.inl ⟨htake, by simpa using hexp⟩)
    · exact absurd (.inr hdrop) hstays
  · rintro ⟨htake, hinside, -⟩ (⟨-, hexp⟩ | hdrop)
    · rw [hexp] at hinside
      cases hinside
    · exact hdisjoint htake hdrop

end

/-- Rotations leave room when they are the only ones to give way. -/
theorem prunesOnlySurplus_of_room {active : ActivePath} {activeName : String} {keep : Nat}
    {now : Int} {retentionSeconds : Option Nat} {dir : List DirEntry} (hdir : dir.Nodup)
    (hname : active.pruneName = some activeName)
    (hroom : OnlyRotationsGiveWay active keep (retentionCutoff now retentionSeconds)
      (siblings activeName dir)) :
    PrunesOnlySurplus active keep (retentionCutoff now retentionSeconds) dir
      (pruneRotatedSiblings active true now keep retentionSeconds dir) := by
  rw [pruneRotatedSiblings_eq hname]
  exact ⟨fun e he => isRotation_of_removed hname hroom he,
    staying active activeName keep (retentionCutoff now retentionSeconds) dir,
    keepNewest_staying hdir hname hroom, fun e he => not_removed_iff_staying hdir hname he⟩

/-- Where something else is ranked and there is no room, it displaces a
    rotation or is removed itself. -/
theorem room_of_prunesOnlySurplus {active : ActivePath} {activeName : String} {keep : Nat}
    {now : Int} {retentionSeconds : Option Nat} {dir : List DirEntry}
    (hname : active.pruneName = some activeName)
    (h : PrunesOnlySurplus active keep (retentionCutoff now retentionSeconds) dir
      (pruneRotatedSiblings active true now keep retentionSeconds dir)) :
    OnlyRotationsGiveWay active keep (retentionCutoff now retentionSeconds)
      (siblings activeName dir) := by
  rw [pruneRotatedSiblings_eq hname] at h
  generalize retentionCutoff now retentionSeconds = cutoff at h ⊢
  obtain ⟨honly, kept, hkept, hremoved⟩ := h
  have hexpired : ∀ e ∈ siblings activeName dir, beyondTime cutoff e = true →
      IsRotation active e := by
    intro e he hexp
    refine (honly e (List.mem_append.mpr ?_)).1
    rcases mem_take_or_drop.mpr he with htake | hdrop
    · exact .inl (List.mem_filter.mpr ⟨htake, hexp⟩)
    · exact .inr hdrop
  by_cases hall : ∀ e ∈ siblings activeName dir, IsRotation active e
  · exact .inl hall
  refine .inr ⟨hexpired, ?_⟩
  obtain ⟨foreign, hforeign, hnot⟩ : ∃ e ∈ siblings activeName dir, ¬IsRotation active e := by
    simpa using hall
  have hfirst : foreign ∈ (siblings activeName dir).take keep := by
    rcases mem_take_or_drop.mpr hforeign with htake | hdrop
    · exact htake
    · exact absurd (honly foreign (List.mem_append.mpr (.inr hdrop))).1 hnot
  -- No file inside the window is dropped: it would find the kept complete.
  have hdropped : ∀ e ∈ (siblings activeName dir).drop keep, beyondTime cutoff e = true := by
    intro e he
    by_contra hinside
    have herem := List.mem_append_right
      (((siblings activeName dir).take keep).filter (beyondTime cutoff)) he
    have herot : e ∈ rotations active dir :=
      mem_rotations.mpr ⟨(mem_siblings.mp (mem_take_or_drop.mp (.inr he))).1, (honly e herem).1⟩
    have hout : e ∉ kept := fun hin => (hremoved e herot).mpr hin herem
    have hstays : ∀ k ∈ kept, k ∉ (siblings activeName dir).drop keep := fun k hk hdrop =>
      (hremoved k (hkept.inside k hk).1).mpr hk (List.mem_append_right _ hdrop)
    have hshort : kept.length < keep := hkept.length_lt_of_foreign hname hstays hfirst hnot
    obtain ⟨hfull, -⟩ := hkept.newest e herot (by simpa using hinside) hout
    omega
  have hlater : ((siblings activeName dir).drop keep).filter (fun e => !beyondTime cutoff e)
      = [] := by
    refine List.filter_eq_nil_iff.mpr fun e he => ?_
    simp [hdropped e he]
  rw [← List.take_append_drop keep (siblings activeName dir), List.filter_append, hlater,
    List.append_nil]
  exact Nat.le_trans (List.length_filter_le _ _) (List.length_take_le _ _)

/-- Without a name to go by, or without a listing, nothing is removed. -/
theorem pruneRotatedSiblings_idle {active : ActivePath} {readable : Bool}
    (h : active.pruneName = none ∨ readable = false) (now : Int) (keep : Nat)
    (retentionSeconds : Option Nat) (dir : List DirEntry) :
    pruneRotatedSiblings active readable now keep retentionSeconds dir = [] := by
  unfold pruneRotatedSiblings
  rcases h with h | h
  · rw [h]
  · rw [h]
    cases active.pruneName <;> rfl

theorem prunesOnlySurplus_nil {active : ActivePath} {keep : Nat} {cutoff : Option Int}
    {dir : List DirEntry} (hdir : dir.Nodup) :
    PrunesOnlySurplus active keep cutoff dir [] ↔
      (∀ e ∈ rotations active dir, beyondTime cutoff e = false) ∧
        (rotations active dir).length ≤ keep := by
  have hnodup : (rotations active dir).Nodup := hdir.filter _
  constructor
  · rintro ⟨-, kept, hkept, hremoved⟩
    have hall : ∀ e ∈ rotations active dir, e ∈ kept :=
      fun e he => (hremoved e he).mp List.not_mem_nil
    exact ⟨fun e he => (hkept.inside e (hall e he)).2,
      Nat.le_trans (List.subperm_of_subset hnodup hall).length_le hkept.bounded⟩
  · rintro ⟨hinside, hfits⟩
    refine ⟨fun e he => absurd he List.not_mem_nil, rotations active dir, ?_, ?_⟩
    · exact ⟨hnodup, fun e he => ⟨he, hinside e he⟩, hfits, fun e he _ hout => absurd he hout⟩
    · exact fun e he => ⟨fun _ => he, fun _ => List.not_mem_nil⟩

def backupActive : ActivePath := ⟨some "/var/log", some (.utf8 "audit.jsonl")⟩

def backupStamp : OffsetDateTime :=
  { year := 2026, month := 4, day := 7, hour := 14, minute := 22, second := 1, millisecond := 0 }

def activeEntry : DirEntry := ⟨.utf8 "audit.jsonl", some ⟨true, some 30⟩⟩

def rotatedEntry : DirEntry :=
  ⟨.utf8 "audit.jsonl.2026-04-07T14-22-01.000Z", some ⟨true, some 10⟩⟩

/-- A copy that an operator made after the rotation. -/
def backupEntry : DirEntry := ⟨.utf8 "audit.jsonl.bak", some ⟨true, some 20⟩⟩

def backupDir : List DirEntry := [activeEntry, rotatedEntry, backupEntry]

theorem rotatedEntry_isRotation : IsRotation backupActive rotatedEntry := by
  refine ⟨⟨backupStamp, ?_, rotatedPath "" backupStamp, List.mem_cons_self, ?_⟩, rfl⟩
  · exact ⟨by decide, by decide, by decide, by decide, by decide, by decide, by decide⟩
  · decide

/-- What stands behind the active name in a rotation holds a `Z`. -/
theorem stamped_of_isRotation {e : DirEntry} {suffix : String} (h : IsRotation backupActive e)
    (hname : e.name = .utf8 ("audit.jsonl" ++ suffix)) : suffix.toList.contains 'Z' = true := by
  obtain ⟨⟨now, -, rotated, hrotated, heq⟩, -⟩ := h
  obtain ⟨rest, hdot, hstamp⟩ := suffix_of_candidates hrotated
  rw [hname] at heq
  have hsuffix : suffix = rotated := by
    have hstr : "audit.jsonl" ++ suffix = "audit.jsonl" ++ rotated := OsName.utf8.inj heq
    exact String.append_right_inj _ |>.mp hstr
  rw [hsuffix, hdot]
  simp [hstamp]

theorem rotations_backupDir {e : DirEntry} (h : e ∈ rotations backupActive backupDir) :
    e = rotatedEntry := by
  obtain ⟨hdir, hrot⟩ := mem_rotations.mp h
  have hcases : e = activeEntry ∨ e = rotatedEntry ∨ e = backupEntry := by
    simpa [backupDir] using hdir
  rcases hcases with rfl | rfl | rfl
  · exact absurd (@stamped_of_isRotation activeEntry "" hrot rfl) (by decide)
  · rfl
  · exact absurd (@stamped_of_isRotation backupEntry ".bak" hrot rfl) (by decide)

theorem pruneRotatedSiblings_backupDir :
    pruneRotatedSiblings backupActive true 30 1 none backupDir = [rotatedEntry] := by
  decide

end RustyImap.LogPruning
