import RustyImap.Errors
import RustyImap.PartNumbering
import RustyImap.ConfigModel
import RustyImap.LogPruning
import RustyImap.FileNames
import RustyImap.FileTree

/-!
# Writing an attachment (`rimap-server/src/tools/retrieval/sandbox.rs`)

`write_attachment` writes the bytes to a temporary file, links it at the first free name
and unlinks the temporary.  Each operation on a file is given whether it fails; only the
unlinking does not.

What is there is never touched, and what appears is complete.  What can go wrong is the
name: a name of 255 bytes is one that the sanitizer returns, and no number fits behind it.
-/

namespace RustyImap.Sandbox

open RustyImap.FileTree (FsPath Node)
open RustyImap.LogPruning (OsName)
open RustyImap.UnicodeFilter RustyImap.ContentParse

/-! ## One directory -/

abbrev Content := List UInt8

/-- `NAME_MAX`. -/
def NAME_MAX : Nat := 255

def nameLen : OsName → Nat
  | .utf8 name => utf8Len name
  | .other bytes => bytes.length

structure Directory where
  entries : List (OsName × Node OsName Content)
  nodup : (entries.map Prod.fst).Nodup
  short : ∀ name ∈ entries.map Prod.fst, nameLen name ≤ NAME_MAX

/-- The kinds of `std::io::Error` that are told apart here. -/
inductive ErrorKind where
  | alreadyExists
  | notFound
  | invalidFilename
  | other
deriving DecidableEq, Repr

namespace Directory

def names (dir : Directory) : List OsName := dir.entries.map Prod.fst

def node (dir : Directory) (name : OsName) : Option (Node OsName Content) :=
  (dir.entries.find? fun e => e.1 == name).map Prod.snd

def insert (dir : Directory) (name : OsName) (node : Node OsName Content)
    (hfree : name ∉ dir.names) (hshort : nameLen name ≤ NAME_MAX) : Directory where
  entries := dir.entries ++ [(name, node)]
  nodup := by
    rw [List.map_append]
    exact dir.nodup.append (List.nodup_singleton name) (List.disjoint_singleton.mpr hfree)
  short := by
    intro other hother
    rw [List.map_append] at hother
    rcases List.mem_append.mp hother with hother | hother
    · exact dir.short other hother
    · obtain rfl := List.mem_singleton.mp hother
      exact hshort

/-- `create_new`: `O_EXCL`. -/
def createNew (dir : Directory) (name : OsName) (fault : Option ErrorKind) :
    Except ErrorKind Directory :=
  match fault with
  | some kind => .error kind
  | none =>
      if hshort : nameLen name ≤ NAME_MAX then
        if hfree : name ∉ dir.names then .ok (dir.insert name (.file []) hfree hshort)
        else .error .alreadyExists
      else .error .invalidFilename

theorem map_fst_setContent {entries : List (OsName × Node OsName Content)} {name : OsName}
    {content : Content} :
    (entries.map fun e => if e.1 = name then (name, Node.file content) else e).map Prod.fst =
      entries.map Prod.fst := by
  rw [List.map_map]
  refine List.map_congr_left ?_
  intro e _
  rw [Function.comp_apply]
  split
  · rename_i hname
    exact hname.symm
  · rfl

def setContent (dir : Directory) (name : OsName) (content : Content) : Directory where
  entries := dir.entries.map fun e => if e.1 = name then (name, .file content) else e
  nodup := by
    rw [map_fst_setContent]
    exact dir.nodup
  short := by
    rw [map_fst_setContent]
    exact dir.short

/-- `write_all`, which can stop after some of the bytes. -/
def writeAll (dir : Directory) (name : OsName) (data : Content) (fault : Option Nat) :
    Bool × Directory :=
  match fault with
  | none => (true, dir.setContent name data)
  | some written => (false, dir.setContent name (data.take written))

/-- `linkat`: nothing is overwritten and no link is followed. -/
def hardLink (dir : Directory) (src dst : OsName) (fault : Option ErrorKind) :
    Except ErrorKind Directory :=
  match fault with
  | some kind => .error kind
  | none =>
      if hshort : nameLen dst ≤ NAME_MAX then
        match dir.node src with
        | none => .error .notFound
        | some node =>
            if hfree : dst ∉ dir.names then .ok (dir.insert dst node hfree hshort)
            else .error .alreadyExists
      else .error .invalidFilename

def removeFile (dir : Directory) (name : OsName) : Directory where
  entries := dir.entries.filter fun e => e.1 != name
  nodup := dir.nodup.sublist (List.filter_sublist.map Prod.fst)
  short other hother := dir.short other ((List.filter_sublist.map Prod.fst).subset hother)

end Directory

/-! ## Names -/

/-- `rsplit_file_at_dot` of the standard library: before and after the last dot. -/
def rsplitFileAtDot (file : String) : Option String × Option String :=
  if file = ".." then (some file, none)
  else
    let after := file.toList.rtakeWhile (· != '.')
    match file.toList.rdropWhile (· != '.') with
    | [] => (none, some (.ofList after))
    | [_] => (some file, none)
    | before => (some (.ofList before.dropLast), some (.ofList after))

def fileStem (path : Config.Path) : Option String :=
  path.fileName.bind fun file => (rsplitFileAtDot file).1.or (rsplitFileAtDot file).2

def extension (path : Config.Path) : Option String :=
  path.fileName.bind fun file => (rsplitFileAtDot file).1.bind fun _ => (rsplitFileAtDot file).2

def candidateName (safeName stem : String) (ext : Option String) (counter : Nat) : String :=
  if counter = 0 then safeName
  else
    match ext with
    | some e => stem ++ "_" ++ toString counter ++ "." ++ e
    | none => stem ++ "_" ++ toString counter

/-- What `unique_temp_name` reads: the process, its counter and the clock. -/
structure TempStamp where
  pid : UInt32
  seq : UInt64
  nanos : BitVec 128
deriving DecidableEq, Repr

def uniqueTempName (stamp : TempStamp) : String :=
  ".rimap-tmp-" ++ toString stamp.pid.toNat ++ "-" ++ toString stamp.seq.toNat ++ "-" ++
    .ofList (Nat.toDigits 16 stamp.nanos.toNat)

/-! ## `write_attachment` -/

/-- Which operations fail, apart from what the directory itself refuses. -/
structure Faults where
  create : Option ErrorKind := none
  write : Option Nat := none
  link : Nat → Option ErrorKind := fun _ => none

/-- The loop over the candidate names; the temporary file is complete. -/
def placeTemp (canonical : FsPath OsName) (tmpName : OsName) (safeName stem : String)
    (ext : Option String) (faults : Faults) (dir : Directory) (counter : Nat) :
    Except RimapError (FsPath OsName) × Directory :=
  let name := OsName.utf8 (candidateName safeName stem ext counter)
  match dir.hardLink tmpName name (faults.link counter) with
  | .ok dir => (.ok (canonical.join name), dir.removeFile tmpName)
  | .error .alreadyExists =>
      if counter + 1 > 1000 then
        (.error (.internal "too many filename collisions"), dir.removeFile tmpName)
      else placeTemp canonical tmpName safeName stem ext faults dir (counter + 1)
  | .error _ =>
      (.error (.internalSourced "failed to place download file"), dir.removeFile tmpName)
termination_by 1000 - counter

/-- The names that are tried for a file. -/
def candidate (filename : String) (counter : Nat) : String :=
  let safeName := (Config.Path.new filename).fileName.getD "attachment"
  let base := Config.Path.new safeName
  candidateName safeName ((fileStem base).getD "attachment") (extension base) counter

/-- `dest` is its canonical path and what the held directory contains. -/
def writeAttachment (canonical : FsPath OsName) (dir : Directory) (filename : String)
    (data : Content) (stamp : TempStamp) (faults : Faults) :
    Except RimapError (FsPath OsName) × Directory :=
  let safeName := (Config.Path.new filename).fileName.getD "attachment"
  let base := Config.Path.new safeName
  let stem := (fileStem base).getD "attachment"
  let ext := extension base
  let tmpName := OsName.utf8 (uniqueTempName stamp)
  match dir.createNew tmpName faults.create with
  | .error _ => (.error (.internalSourced "failed to create temporary download file"), dir)
  | .ok dir =>
      match dir.writeAll tmpName data faults.write with
      | (false, dir) =>
          (.error (.internalSourced "failed to write download file"), dir.removeFile tmpName)
      | (true, dir) => placeTemp canonical tmpName safeName stem ext faults dir 0

/-! ## What each operation leaves -/

@[simp] theorem entries_insert (dir : Directory) (name : OsName) (node : Node OsName Content)
    (hfree : name ∉ dir.names) (hshort : nameLen name ≤ NAME_MAX) :
    (dir.insert name node hfree hshort).entries = dir.entries ++ [(name, node)] := rfl

@[simp] theorem entries_setContent (dir : Directory) (name : OsName) (content : Content) :
    (dir.setContent name content).entries =
      dir.entries.map fun e => if e.1 = name then (name, .file content) else e := rfl

@[simp] theorem entries_removeFile (dir : Directory) (name : OsName) :
    (dir.removeFile name).entries = dir.entries.filter fun e => e.1 != name := rfl

/-- The temporary file is there, complete, and nothing else has changed. -/
structure Staged (dir : Directory) (tmpName : OsName) (data : Content) (staged : Directory) :
    Prop where
  fresh : tmpName ∉ dir.names
  entries : staged.entries = dir.entries ++ [(tmpName, .file data)]

theorem createNew_cases {dir dir' : Directory} {name : OsName} {fault : Option ErrorKind}
    (h : dir.createNew name fault = .ok dir') : Staged dir name [] dir' := by
  unfold Directory.createNew at h
  split at h
  · cases h
  · split at h
    · split at h
      · rename_i hfree
        cases h
        exact ⟨hfree, rfl⟩
      · cases h
    · cases h

theorem createNew_of_free {dir : Directory} {name : OsName} (hfree : name ∉ dir.names)
    (hshort : nameLen name ≤ NAME_MAX) : ∃ dir', dir.createNew name none = .ok dir' := by
  simp [Directory.createNew, hfree, hshort]

theorem createNew_of_taken {dir : Directory} {name : OsName} (htaken : name ∈ dir.names)
    (fault : Option ErrorKind) : ∃ kind, dir.createNew name fault = .error kind := by
  rcases hnew : dir.createNew name fault with kind | dir'
  · exact ⟨kind, rfl⟩
  · exact absurd htaken (createNew_cases hnew).fresh

theorem ne_of_fresh {dir : Directory} {name : OsName} (hfresh : name ∉ dir.names)
    {e : OsName × Node OsName Content} (he : e ∈ dir.entries) : e.1 ≠ name :=
  fun hname => hfresh (hname ▸ List.mem_map_of_mem he)

theorem Staged.setContent {dir staged : Directory} {tmpName : OsName} {data : Content}
    (h : Staged dir tmpName data staged) (content : Content) :
    Staged dir tmpName content (staged.setContent tmpName content) := by
  refine ⟨h.fresh, ?_⟩
  have hold : (dir.entries.map fun e => if e.1 = tmpName then (tmpName, Node.file content) else e) =
      dir.entries.map id :=
    List.map_congr_left fun e he => if_neg (ne_of_fresh h.fresh he)
  rw [List.map_id] at hold
  rw [entries_setContent, h.entries, List.map_append, hold]
  simp

/-- Without the temporary file, what was put beside it is left. -/
theorem Staged.removeFile {dir staged dir' : Directory} {tmpName : OsName} {data : Content}
    (h : Staged dir tmpName data staged) {added : List (OsName × Node OsName Content)}
    (hadded : ∀ e ∈ added, e.1 ≠ tmpName) (hdir' : dir'.entries = staged.entries ++ added) :
    (dir'.removeFile tmpName).entries = dir.entries ++ added := by
  have hold : dir.entries.filter (fun e => e.1 != tmpName) = dir.entries :=
    List.filter_eq_self.mpr fun e he => bne_iff_ne.mpr (ne_of_fresh h.fresh he)
  have hnew : added.filter (fun e => e.1 != tmpName) = added :=
    List.filter_eq_self.mpr fun e he => bne_iff_ne.mpr (hadded e he)
  rw [entries_removeFile, hdir', h.entries, List.filter_append, List.filter_append, hold, hnew]
  simp

theorem Staged.removed {dir staged : Directory} {tmpName : OsName} {data : Content}
    (h : Staged dir tmpName data staged) : (staged.removeFile tmpName).entries = dir.entries := by
  have hadded : ∀ e ∈ ([] : List (OsName × Node OsName Content)), e.1 ≠ tmpName := nofun
  have hremoved := h.removeFile hadded (List.append_nil _).symm
  rwa [List.append_nil] at hremoved

theorem writeAll_cases {dir staged dir' : Directory} {tmpName : OsName} {content data : Content}
    {fault : Option Nat} {done : Bool} (h : Staged dir tmpName content staged)
    (hwrite : staged.writeAll tmpName data fault = (done, dir')) :
    ∃ written, Staged dir tmpName written dir' ∧ (done = true → written = data) := by
  unfold Directory.writeAll at hwrite
  split at hwrite
  · cases hwrite
    exact ⟨data, h.setContent data, fun _ => rfl⟩
  · cases hwrite
    exact ⟨_, h.setContent _, nofun⟩

theorem Staged.mem_names {dir staged : Directory} {tmpName name : OsName} {data : Content}
    (h : Staged dir tmpName data staged) :
    name ∈ staged.names ↔ name ∈ dir.names ∨ name = tmpName := by
  simp [Directory.names, h.entries]

theorem Staged.node {dir staged : Directory} {tmpName : OsName} {data : Content}
    (h : Staged dir tmpName data staged) : staged.node tmpName = some (.file data) := by
  have hold : dir.entries.find? (fun e => e.1 == tmpName) = none :=
    List.find?_eq_none.mpr fun e he => by simpa using ne_of_fresh h.fresh he
  rw [Directory.node, h.entries, List.find?_append, hold]
  simp

theorem hardLink_cases {dir staged dir' : Directory} {tmpName dst : OsName} {data : Content}
    {fault : Option ErrorKind} (h : Staged dir tmpName data staged)
    (hlink : staged.hardLink tmpName dst fault = .ok dir') :
    dst ≠ tmpName ∧ dir'.entries = staged.entries ++ [(dst, .file data)] := by
  unfold Directory.hardLink at hlink
  rw [h.node] at hlink
  split at hlink
  · cases hlink
  · split at hlink
    · dsimp only at hlink
      split at hlink
      · rename_i hfree
        cases hlink
        exact ⟨fun heq => hfree (h.mem_names.mpr (.inr heq)), rfl⟩
      · cases hlink
    · cases hlink

theorem hardLink_of_free {dir staged : Directory} {tmpName dst : OsName} {data : Content}
    (h : Staged dir tmpName data staged) (hfree : dst ∉ dir.names) (hne : dst ≠ tmpName)
    (hshort : nameLen dst ≤ NAME_MAX) : ∃ dir', staged.hardLink tmpName dst none = .ok dir' := by
  have hfree' : dst ∉ staged.names := by simp [h.mem_names, hfree, hne]
  simp [Directory.hardLink, h.node, hfree', hshort]

theorem hardLink_of_taken {dir staged : Directory} {tmpName dst : OsName} {data : Content}
    (h : Staged dir tmpName data staged) (htaken : dst ∈ dir.names) :
    staged.hardLink tmpName dst none = .error .alreadyExists := by
  have htaken' : dst ∈ staged.names := h.mem_names.mpr (.inl htaken)
  simp [Directory.hardLink, h.node, htaken', dir.short dst htaken]

theorem hardLink_of_long (dir : Directory) (tmpName : OsName) {dst : OsName}
    (hlong : ¬nameLen dst ≤ NAME_MAX) :
    dir.hardLink tmpName dst none = .error .invalidFilename := by
  simp [Directory.hardLink, hlong]

/-! ## The loop -/

/-- On success one entry is new, on failure none; the others are as they were. -/
def Placement (canonical : FsPath OsName) (dir : Directory) (data : Content) :
    Except RimapError (FsPath OsName) × Directory → Prop
  | (.ok path, dir') =>
      ∃ name, path = canonical.join name ∧ dir'.entries = dir.entries ++ [(name, .file data)]
  | (.error _, dir') => dir'.entries = dir.entries

section Loop

variable {canonical : FsPath OsName} {dir staged : Directory} {tmpName : OsName}
  {safeName stem : String} {ext : Option String} {data : Content} {faults : Faults}

theorem placeTemp_placement (h : Staged dir tmpName data staged) (counter : Nat) :
    Placement canonical dir data
      (placeTemp canonical tmpName safeName stem ext faults staged counter) := by
  fun_induction placeTemp canonical tmpName safeName stem ext faults staged counter with
  | case1 counter name dir' hlink =>
      obtain ⟨hne, hentries⟩ := hardLink_cases h hlink
      refine ⟨name, rfl, h.removeFile ?_ hentries⟩
      intro e he
      rw [List.mem_singleton.mp he]
      exact hne
  | case2 => exact h.removed
  | case3 counter name hlink hcounter ih => exact ih
  | case4 => exact h.removed

/-- The loop goes over the names that are taken. -/
theorem placeTemp_of_taken (h : Staged dir tmpName data staged) (hlinks : ∀ k, faults.link k = none)
    {k : Nat} (hk : k ≤ 1000)
    (htaken : ∀ j < k, .utf8 (candidateName safeName stem ext j) ∈ dir.names) {counter : Nat}
    (hcounter : counter ≤ k) :
    placeTemp canonical tmpName safeName stem ext faults staged counter =
      placeTemp canonical tmpName safeName stem ext faults staged k := by
  induction hcounter using Nat.decreasingInduction with
  | self => rfl
  | of_succ j hj ih =>
      rw [placeTemp, hlinks, hardLink_of_taken h (htaken j hj)]
      dsimp only
      rw [if_neg (by omega), ih]

end Loop

/-! ## The names that are tried -/

theorem splitSlashes_eq {text : List Char} (h : '/' ∉ text) :
    Config.Path.new.splitSlashes text = [text] := by
  induction text with
  | nil => rfl
  | cons c rest ih =>
      obtain ⟨hc, hrest⟩ := not_or.mp (mt List.mem_cons.mpr h)
      unfold Config.Path.new.splitSlashes
      split
      · rename_i heq
        cases heq
      · rename_i heq
        cases heq
        exact absurd rfl hc
      · rename_i heq
        cases heq
        rw [ih hrest]

/-- A safe name is a path of one component. -/
theorem fileName_new {name : String} (h : SafeName name.toList) :
    (Config.Path.new name).fileName = some name := by
  have hdot : ∀ other : String, other.toList.head? = some '.' → name ≠ other := by
    rintro other hother rfl
    exact absurd (h.first '.' hother) (by decide)
  have hempty : name ≠ "" := fun heq => h.nonempty (by rw [heq]; rfl)
  have hcur := hdot "." rfl
  have hparent := hdot ".." rfl
  have hkept : Config.Path.new.keeps name = true := by
    simp [Config.Path.new.keeps, hempty, hcur]
  have hsplit := splitSlashes_eq fun hmem => (h.chars '/' hmem).1 rfl
  unfold Config.Path.fileName Config.Path.new
  rw [hsplit]
  simp [hcur, hkept, hparent]

/-- Before and after the last dot; a name that does not start with a dot has a stem. -/
theorem rsplitFileAtDot_cases {name : String} (h : SafeName name.toList) :
    rsplitFileAtDot name = (none, some name) ∨
      ∃ stem ext : String, rsplitFileAtDot name = (some stem, some ext) ∧ stem.toList ≠ [] ∧
        name.toList = stem.toList ++ '.' :: ext.toList := by
  have hfirst : name.toList.head? ≠ some '.' := fun hhead =>
    absurd (h.first '.' hhead) (by decide)
  have hparent : name ≠ ".." := by
    rintro rfl
    exact hfirst rfl
  have hwhole := List.rdropWhile_append_rtakeWhile (p := (· != '.')) (l := name.toList)
  have hprefix := List.rdropWhile_prefix (· != '.') name.toList
  have hlast := List.rdropWhile_last_not (· != '.') name.toList
  rw [rsplitFileAtDot, if_neg hparent]
  dsimp only
  generalize name.toList.rtakeWhile (· != '.') = after at hwhole ⊢
  rcases hbefore : name.toList.rdropWhile (· != '.') with _ | ⟨c, _ | ⟨d, rest⟩⟩
  · rw [hbefore, List.nil_append] at hwhole
    rw [hwhole, String.ofList_toList]
    exact .inl rfl
  · rw [hbefore] at hlast hprefix
    obtain rfl : c = '.' := by simpa using hlast (by simp)
    exact absurd (head?_of_isPrefix hprefix rfl) hfirst
  · rw [hbefore] at hwhole hlast
    have hdot : (c :: d :: rest).getLast (by simp) = '.' := by simpa using hlast (by simp)
    have hsplit := List.dropLast_append_getLast (l := c :: d :: rest) (by simp)
    rw [hdot] at hsplit
    refine .inr ⟨_, _, rfl, ?_, ?_⟩
    · rw [String.toList_ofList]
      simp
    · have hjoin := congrArg (· ++ after) hsplit
      simp only [List.append_assoc, List.singleton_append] at hjoin
      rw [String.toList_ofList, String.toList_ofList, ← hwhole, hjoin]

/-- What a counter puts behind the stem. -/
def numbered (counter : Nat) : List Char :=
  if counter = 0 then [] else '_' :: Nat.toDigits 10 counter

theorem numbered_injective {i j : Nat} (h : numbered i = numbered j) : i = j := by
  unfold numbered at h
  split at h <;> split at h
  · omega
  · cases h
  · cases h
  · exact PartNumbering.toDigits_injective (List.cons.inj h).2

theorem utf8LenOf_toDigits_le {n k : Nat} (hk : 0 < k) (h : n < 10 ^ k) :
    utf8LenOf (Nat.toDigits 10 n) ≤ k := by
  have hascii : ∀ c ∈ Nat.toDigits 10 n, c.toNat < 0x80 := by
    intro c hc
    have hdigit := Nat.isDigit_of_mem_toDigits (by decide) (by decide) hc
    exact Nat.lt_succ_of_lt (plain_of_isDigit hdigit).ascii
  rw [utf8LenOf_of_ascii hascii]
  exact (Nat.length_toDigits_le_iff (by decide) hk).mpr h

theorem utf8LenOf_numbered_le {counter : Nat} (h : counter ≤ 1000) :
    utf8LenOf (numbered counter) ≤ 5 := by
  unfold numbered
  split
  · exact Nat.zero_le 5
  · have hdigits := utf8LenOf_toDigits_le (n := counter) (k := 4) (by decide) (by omega)
    have hunderscore : ('_' : Char).utf8Size = 1 := rfl
    rw [utf8LenOf_cons, hunderscore]
    omega

theorem utf8LenOf_le (text : List Char) : utf8LenOf text ≤ 4 * text.length := by
  induction text with
  | nil => exact Nat.le_refl 0
  | cons c rest ih =>
      have hc := c.utf8Size_le_four
      rw [utf8LenOf_cons, List.length_cons]
      omega

theorem toList_toString (n : Nat) : (toString n).toList = Nat.toDigits 10 n := by
  rw [Nat.toString_eq_ofList_toDigits, String.toList_ofList]

/-- Every candidate is the name with its number in it. -/
theorem toList_candidate {name : String} (h : SafeName name.toList) :
    ∃ stem rest : List Char, stem ≠ [] ∧ name.toList = stem ++ rest ∧
      ∀ counter, (candidate name counter).toList = stem ++ numbered counter ++ rest := by
  have hname := fileName_new h
  have hcandidate (counter : Nat) : candidate name counter = candidateName name
      ((fileStem (.new name)).getD "attachment") (extension (.new name)) counter := by
    rw [candidate, hname, Option.getD_some]
  rw [fileStem, extension, hname, Option.bind_some, Option.bind_some] at hcandidate
  rcases rsplitFileAtDot_cases h with hsplit | ⟨stem, ext, hsplit, hstem, hchars⟩
  · refine ⟨name.toList, [], h.nonempty, (List.append_nil _).symm, ?_⟩
    intro counter
    rw [hcandidate, hsplit]
    unfold candidateName numbered
    split <;> simp
  · refine ⟨stem.toList, '.' :: ext.toList, hstem, hchars, ?_⟩
    intro counter
    rw [hcandidate, hsplit]
    unfold candidateName numbered
    split <;> simp [hchars]

theorem candidate_injective {name : String} (h : SafeName name.toList) {i j : Nat}
    (heq : candidate name i = candidate name j) : i = j := by
  obtain ⟨stem, rest, -, -, hchars⟩ := toList_candidate h
  have hlists := congrArg String.toList heq
  rw [hchars, hchars, List.append_left_inj, List.append_right_inj] at hlists
  exact numbered_injective hlists

/-- No candidate is a temporary name: that starts with a dot. -/
theorem candidate_ne_uniqueTempName {name : String} (h : SafeName name.toList) (counter : Nat)
    (stamp : TempStamp) : candidate name counter ≠ uniqueTempName stamp := by
  intro heq
  obtain ⟨stem, rest, hstem, hname, hchars⟩ := toList_candidate h
  obtain ⟨c, stem, rfl⟩ := List.exists_cons_of_ne_nil hstem
  have hdot : (uniqueTempName stamp).toList.head? = some '.' := by simp [uniqueTempName]
  rw [← heq, hchars] at hdot
  have hfirst := h.first c (by rw [hname]; rfl)
  obtain rfl : c = '.' := by simpa using hdot
  exact absurd hfirst (by decide)

theorem utf8Len_candidate {name : String} (h : SafeName name.toList) (counter : Nat) :
    utf8Len (candidate name counter) = utf8Len name + utf8LenOf (numbered counter) := by
  obtain ⟨stem, rest, -, hname, hchars⟩ := toList_candidate h
  rw [utf8Len_eq, utf8Len_eq, hname, hchars]
  simp only [utf8LenOf_append]
  omega

theorem candidate_zero {name : String} (h : SafeName name.toList) : candidate name 0 = name := by
  obtain ⟨stem, rest, -, hname, hchars⟩ := toList_candidate h
  have hzero := hchars 0
  rw [numbered, if_pos rfl, List.append_nil, ← hname] at hzero
  exact String.toList_injective hzero

theorem nameLen_uniqueTempName_le (stamp : TempStamp) :
    nameLen (.utf8 (uniqueTempName stamp)) ≤ NAME_MAX := by
  have hpid := utf8LenOf_toDigits_le (n := stamp.pid.toNat) (k := 10) (by decide) (by
    have hlt := stamp.pid.toNat_lt
    omega)
  have hseq := utf8LenOf_toDigits_le (n := stamp.seq.toNat) (k := 20) (by decide) (by
    have hlt := stamp.seq.toNat_lt
    omega)
  have hnanos : (Nat.toDigits 16 stamp.nanos.toNat).length ≤ 32 :=
    (Nat.length_toDigits_le_iff (by decide) (by decide)).mpr stamp.nanos.isLt
  have hnanos' := utf8LenOf_le (Nat.toDigits 16 stamp.nanos.toNat)
  have hfixed : utf8LenOf ".rimap-tmp-".toList = 11 ∧ utf8LenOf "-".toList = 1 := by decide
  rw [nameLen, NAME_MAX, utf8Len_eq, uniqueTempName]
  simp only [String.toList_append, String.toList_ofList, utf8LenOf_append, toList_toString,
    hfixed.1, hfixed.2]
  omega

/-! ## The main result -/

/-- The first candidate that no entry has. -/
structure FirstFree (dir : Directory) (filename : String) (counter : Nat) : Prop where
  free : .utf8 (candidate filename counter) ∉ dir.names
  taken : ∀ j < counter, .utf8 (candidate filename j) ∈ dir.names

theorem FirstFree.unique {dir : Directory} {filename : String} {i j : Nat}
    (hi : FirstFree dir filename i) (hj : FirstFree dir filename j) : i = j := by
  rcases Nat.lt_trichotomy i j with hlt | heq | hlt
  · exact absurd (hj.taken i hlt) hi.free
  · exact heq
  · exact absurd (hi.taken j hlt) hj.free

/-- Fewer entries than candidates leave one free. -/
theorem exists_firstFree {dir : Directory} {name : String} (h : SafeName name.toList) {n : Nat}
    (hlen : dir.entries.length ≤ n) : ∃ counter ≤ n, FirstFree dir name counter := by
  have hexists : ∃ k ≤ n, .utf8 (candidate name k) ∉ dir.names := by
    by_contra hall
    push Not at hall
    have hnodup : ((List.range (n + 1)).map fun k => OsName.utf8 (candidate name k)).Nodup :=
      List.nodup_range.map fun i j heq => candidate_injective h (OsName.utf8.inj heq)
    have hsubset : ((List.range (n + 1)).map fun k => OsName.utf8 (candidate name k)) ⊆
        dir.names := by
      intro other hother
      obtain ⟨k, hk, rfl⟩ := List.mem_map.mp hother
      exact hall k (by simpa [Nat.lt_succ_iff] using hk)
    have hle := hnodup.length_le_of_subset hsubset
    rw [List.length_map, List.length_range, Directory.names, List.length_map] at hle
    omega
  obtain ⟨k, hk, hfree⟩ := hexists
  have hsome : ∃ k, .utf8 (candidate name k) ∉ dir.names := ⟨k, hfree⟩
  refine ⟨Nat.find hsome, (Nat.find_min' hsome hfree).trans hk, Nat.find_spec hsome,
    fun j hj => ?_⟩
  exact not_not.mp (Nat.find_min hsome hj)

/-- Nothing fails but what the directory refuses. -/
structure Faults.Quiet (faults : Faults) : Prop where
  create : faults.create = none
  write : faults.write = none
  link : ∀ counter, faults.link counter = none

section Write

variable (canonical : FsPath OsName) (dir : Directory) (filename : String) (data : Content)
  (stamp : TempStamp) (faults : Faults)

theorem writeAttachment_placement :
    Placement canonical dir data (writeAttachment canonical dir filename data stamp faults) := by
  unfold writeAttachment
  dsimp only
  split
  · rfl
  · rename_i staged hnew
    have hstaged := createNew_cases hnew
    split
    · rename_i hwrite
      obtain ⟨written, hwritten, -⟩ := writeAll_cases hstaged hwrite
      exact hwritten.removed
    · rename_i hwrite
      obtain ⟨written, hwritten, hdone⟩ := writeAll_cases hstaged hwrite
      obtain rfl := hdone rfl
      exact placeTemp_placement hwritten 0

/-- Without faults the loop starts, if the temporary name is free. -/
theorem writeAttachment_of_free (hquiet : faults.Quiet)
    (hfree : .utf8 (uniqueTempName stamp) ∉ dir.names) :
    ∃ staged, Staged dir (.utf8 (uniqueTempName stamp)) data staged ∧
      writeAttachment canonical dir filename data stamp faults =
        (let safeName := (Config.Path.new filename).fileName.getD "attachment"
         let base := Config.Path.new safeName
         placeTemp canonical (.utf8 (uniqueTempName stamp)) safeName
          ((fileStem base).getD "attachment") (extension base) faults staged 0) := by
  obtain ⟨created, hnew⟩ := createNew_of_free hfree (nameLen_uniqueTempName_le stamp)
  refine ⟨_, (createNew_cases hnew).setContent data, ?_⟩
  unfold writeAttachment
  dsimp only
  rw [hquiet.create, hquiet.write, hnew]
  rfl

variable {canonical dir filename data stamp faults}

/-- Without faults, what decides is the first free candidate. -/
theorem writeAttachment_ok_iff (hquiet : faults.Quiet) (h : SafeName filename.toList)
    {counter : Nat} (hcounter : counter ≤ 1000) (hfirst : FirstFree dir filename counter) :
    (∃ path, (writeAttachment canonical dir filename data stamp faults).1 = .ok path) ↔
      .utf8 (uniqueTempName stamp) ∉ dir.names ∧
        nameLen (.utf8 (candidate filename counter)) ≤ NAME_MAX := by
  by_cases hfree : .utf8 (uniqueTempName stamp) ∉ dir.names
  · obtain ⟨staged, hstaged, hrun⟩ :=
      writeAttachment_of_free canonical dir filename data stamp faults hquiet hfree
    have hne : OsName.utf8 (candidate filename counter) ≠ .utf8 (uniqueTempName stamp) :=
      fun heq => candidate_ne_uniqueTempName h counter stamp (OsName.utf8.inj heq)
    rw [hrun]
    dsimp only
    rw [placeTemp_of_taken hstaged hquiet.link hcounter hfirst.taken (Nat.zero_le counter),
      placeTemp, hquiet.link]
    by_cases hshort : nameLen (.utf8 (candidate filename counter)) ≤ NAME_MAX
    · obtain ⟨dir', hlink⟩ := hardLink_of_free hstaged hfirst.free hne hshort
      rw [candidate] at hlink
      rw [hlink]
      exact ⟨fun _ => ⟨hfree, hshort⟩, fun _ => ⟨_, rfl⟩⟩
    · have hlink := hardLink_of_long staged (.utf8 (uniqueTempName stamp)) hshort
      rw [candidate] at hlink
      rw [hlink]
      exact ⟨fun ⟨_, hok⟩ => (nomatch hok), fun hboth => absurd hboth.2 hshort⟩
  · obtain ⟨kind, hnew⟩ := createNew_of_taken (not_not.mp hfree) faults.create
    unfold writeAttachment
    dsimp only
    rw [hnew]
    exact ⟨fun ⟨_, hok⟩ => (nomatch hok), fun hboth => absurd hboth.1 hfree⟩

/-- **Where an attachment lands.**  What is there stays, and on success one new entry has
    the data at the returned path; without faults and with fewer than 1001 entries a place
    is found, unless the temporary name is taken or the first free name is too long. -/
theorem writeAttachment_places (canonical : FsPath OsName) (dir : Directory)
    (libs : ContentLibs) (name : String) (idx : UInt64) (data : Content) (stamp : TempStamp)
    (faults : Faults) :
    (Placement canonical dir data (writeAttachment canonical dir
        (sanitizeFilename libs name idx.toNat).1 data stamp faults) ∧
      (faults.Quiet → dir.entries.length < 1001 →
        ∃ path, (writeAttachment canonical dir (sanitizeFilename libs name idx.toNat).1 data
          stamp faults).1 = .ok path)) ↔
      (faults.Quiet → dir.entries.length < 1001 →
        .utf8 (uniqueTempName stamp) ∉ dir.names ∧
          ∀ counter, FirstFree dir (sanitizeFilename libs name idx.toNat).1 counter →
            nameLen (.utf8 (candidate (sanitizeFilename libs name idx.toNat).1 counter)) ≤
              NAME_MAX) := by
  have hsafe := safeName_sanitizeFilename libs name idx
  generalize (sanitizeFilename libs name idx.toNat).1 = filename at hsafe ⊢
  have hplacement := writeAttachment_placement canonical dir filename data stamp faults
  constructor
  · rintro ⟨-, hok⟩ hquiet hlen
    obtain ⟨first, hfirst, hfree⟩ := exists_firstFree hsafe (Nat.le_of_lt_succ hlen)
    obtain ⟨htmp, hshort⟩ :=
      (writeAttachment_ok_iff hquiet hsafe hfirst hfree).mp (hok hquiet hlen)
    refine ⟨htmp, ?_⟩
    intro counter hcounter
    rwa [hcounter.unique hfree]
  · refine fun hnames => ⟨hplacement, fun hquiet hlen => ?_⟩
    obtain ⟨first, hfirst, hfree⟩ := exists_firstFree hsafe (Nat.le_of_lt_succ hlen)
    obtain ⟨htmp, hshort⟩ := hnames hquiet hlen
    exact (writeAttachment_ok_iff hquiet hsafe hfirst hfree).mpr ⟨htmp, hshort first hfree⟩

/-- Five bytes are enough for every number. -/
theorem writeAttachment_ok_of_short (hquiet : faults.Quiet) (h : SafeName filename.toList)
    (hlen : dir.entries.length < 1001) (hfree : .utf8 (uniqueTempName stamp) ∉ dir.names)
    (hshort : utf8Len filename ≤ 250) :
    ∃ path, (writeAttachment canonical dir filename data stamp faults).1 = .ok path := by
  obtain ⟨first, hfirst, hfirstFree⟩ := exists_firstFree h (Nat.le_of_lt_succ hlen)
  have hnumber := utf8LenOf_numbered_le hfirst
  refine (writeAttachment_ok_iff hquiet h hfirst hfirstFree).mpr ⟨hfree, ?_⟩
  rw [nameLen, NAME_MAX, utf8Len_candidate h]
  omega

/-- No number fits behind a name of 254 bytes. -/
theorem writeAttachment_fails_of_taken (hquiet : faults.Quiet) (h : SafeName filename.toList)
    (hlong : 254 ≤ utf8Len filename) (htaken : .utf8 filename ∈ dir.names) :
    ¬∃ path, (writeAttachment canonical dir filename data stamp faults).1 = .ok path := by
  have hnumber : utf8LenOf (numbered 1) = 2 := by decide
  have htoo : ¬nameLen (.utf8 (candidate filename 1)) ≤ NAME_MAX := by
    rw [nameLen, NAME_MAX, utf8Len_candidate h, hnumber]
    omega
  have hfirst : FirstFree dir filename 1 := by
    refine ⟨fun hmem => htoo (dir.short _ hmem), fun j hj => ?_⟩
    obtain rfl : j = 0 := by omega
    rwa [candidate_zero h]
  intro hok
  exact htoo ((writeAttachment_ok_iff hquiet h (by decide) hfirst).mp hok).2

end Write

theorem utf8LenOf_replicate (n : Nat) : utf8LenOf (List.replicate n 'a') = n := by
  rw [utf8LenOf_of_ascii, List.length_replicate]
  intro c hc
  rw [List.eq_of_mem_replicate hc]
  decide

theorem normalName_replicate : NormalName (List.replicate 255 'a') := by
  have hletter : ∀ c ∈ List.replicate 255 'a', c = 'a' := fun c hc => List.eq_of_mem_replicate hc
  have hstem : reservedStem (List.replicate 255 'a') = false := by decide +kernel
  refine ⟨⟨by decide, (utf8LenOf_replicate 255).le, fun c hc => ?_, fun c hc => ?_⟩,
    fun c hc => ?_, hstem⟩
  · rw [hletter c hc]
    decide
  · rw [hletter c (List.mem_of_mem_head? hc)]
    decide
  · rw [hletter c (List.mem_of_getLast? hc)]
    decide

/-- A second file of a name of 255 bytes is refused. -/
theorem writeAttachment_refuses_second :
    ¬∀ (canonical : FsPath OsName) (dir : Directory) (libs : ContentLibs) (name : String)
        (idx : UInt64) (data : Content) (stamp : TempStamp) (faults : Faults),
      Placement canonical dir data (writeAttachment canonical dir
          (sanitizeFilename libs name idx.toNat).1 data stamp faults) ∧
        (faults.Quiet → dir.entries.length < 1001 →
          ∃ path, (writeAttachment canonical dir (sanitizeFilename libs name idx.toNat).1 data
            stamp faults).1 = .ok path) := by
  intro hall
  have hnormal : NormalName (String.ofList (List.replicate 255 'a')).toList := by
    rw [String.toList_ofList]
    exact normalName_replicate
  have hlen : utf8Len (.ofList (List.replicate 255 'a')) = 255 := by
    rw [utf8Len_ofList, utf8LenOf_replicate]
  generalize String.ofList (List.replicate 255 'a') = name at hnormal hlen
  have hdirShort : ∀ other ∈ [OsName.utf8 name], nameLen other ≤ NAME_MAX := by
    intro other hother
    rw [List.mem_singleton.mp hother]
    exact hlen.le
  have hquiet : Faults.Quiet {} := ⟨rfl, rfl, fun _ => rfl⟩
  have hwrite := hall ⟨true, []⟩ ⟨[(.utf8 name, .file [])], List.nodup_singleton _, hdirShort⟩
    (htmlOnlyLibs {} [] "") name 0 [1] ⟨1, 0, 0⟩ {}
  rw [sanitizeFilename_of_normalName hnormal] at hwrite
  exact writeAttachment_fails_of_taken hquiet hnormal.toSafeName (hlen ▸ by decide)
    (List.mem_singleton_self _) (hwrite.2 hquiet (by simp))

end RustyImap.Sandbox
