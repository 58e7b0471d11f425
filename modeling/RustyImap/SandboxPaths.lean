import RustyImap.AttachmentWrite

/-!
# The download sandbox (`rimap-server/src/tools/retrieval/sandbox.rs`)

`resolve_dest_dir` says where a tool may write, `read_sandboxed_file` what a tool may
read, both below one configured root.  The reader compares canonical paths.  The writer
compares the canonical path of what was asked for with the root as it was configured, so
it accepts something only if the root is a canonical path itself.
-/

namespace RustyImap.Sandbox

open RustyImap.FileTree (Component FsPath Node Tree FileSystem)
open RustyImap.LogPruning (OsName)

/-! ## The host -/

/-- A file system, with the text of the error for a path that does not resolve. -/
structure Host extends FileSystem OsName Content where
  osError : FsPath OsName → String

def component (part : String) : Component OsName :=
  if part = "." then .cur
  else if part = ".." then .parent
  else .normal (.utf8 part)

/-- `PathBuf::from`. -/
def pathBuf (text : String) : FsPath OsName :=
  ⟨(Config.Path.new text).absolute, (Config.Path.new text).components.map component⟩

def invalidInput (message : String) : RimapError := .authz .invalidInput message

/-- A root that names an existing directory, as `resolve_download_dir_multi` gives it. -/
structure DownloadRoot (host : Host) where
  path : FsPath OsName
  place : List OsName
  resolves : host.canonicalize path = some place
  isDir : host.node place = some .dir

/-! ## Writing -/

/-- The path to report, and the directory that is held open. -/
structure DestDir where
  canonical : FsPath OsName
  dir : List OsName
deriving DecidableEq, Repr

/-- `Dir::open_ambient_dir`. -/
def openAmbientDir (host : Host) (path : FsPath OsName) (message : String) :
    Except RimapError (List OsName) :=
  match host.canonicalize path with
  | none => .error (.internalSourced message)
  | some place =>
      match host.node place with
      | some .dir => .ok place
      | _ => .error (.internalSourced message)

/-- Which path is opened; the fallback is not checked. -/
def destPath (host : Host) (destDir : Option String) (allowedRoot fallbackDir : FsPath OsName) :
    Except RimapError (FsPath OsName) :=
  match destDir with
  | some d =>
      match host.canonicalize (pathBuf d) with
      | none =>
          .error (invalidInput ("cannot resolve dest_dir: " ++ host.osError (pathBuf d)))
      | some place =>
          if (FsPath.ofPlace place).startsWith allowedRoot then .ok (.ofPlace place)
          else .error (invalidInput "dest_dir is outside allowed download directory")
  | none => .ok fallbackDir

def resolveDestDir (host : Host) (destDir : Option String)
    (allowedRoot fallbackDir : FsPath OsName) : Except RimapError DestDir := do
  let dirPath ← destPath host destDir allowedRoot fallbackDir
  let dir ← openAmbientDir host dirPath "failed to open download directory"
  .ok ⟨dirPath, dir⟩

/-! ## Reading -/

/-- The checks on the path: its parent resolves to the canonical root or below. -/
def checkContainment (host : Host) (root requested : FsPath OsName) :
    Except RimapError (List OsName × OsName) :=
  match requested.parent.filter (!·.isEmpty), requested.fileName with
  | some parent, some name =>
      match host.canonicalize parent with
      | none =>
          .error (invalidInput ("cannot resolve attachment directory: " ++ host.osError parent))
      | some canonicalParent =>
          match host.canonicalize root with
          | none =>
              .error (invalidInput
                ("cannot resolve download sandbox root: " ++ host.osError root))
          | some canonicalRoot =>
              if (FsPath.ofPlace canonicalParent).startsWith (.ofPlace canonicalRoot) then
                .ok (canonicalParent, name)
              else .error (invalidInput "attachment path is outside the download sandbox")
  | _, _ =>
      .error (invalidInput
        "attachment path must be an absolute file path inside the download sandbox")

/-- The file in the directory that is held open: no link is followed. -/
def readLeaf (host : Host) (dir : List OsName) (name : OsName) (maxBytes : Nat) :
    Except RimapError Content :=
  match host.node (dir ++ [name]) with
  | none =>
      .error (invalidInput
        ("cannot stat attachment: " ++ host.osError (.ofPlace (dir ++ [name]))))
  | some (.symlink _) =>
      .error (invalidInput "attachment path is a symlink; refusing to follow")
  | some .dir => .error (invalidInput "attachment path is not a regular file")
  | some (.file content) =>
      if content.length > maxBytes then
        .error (invalidInput ("attachment too large (" ++ toString content.length ++
          " bytes); max is " ++ toString maxBytes))
      else
        let buf := content.take (maxBytes + 1)
        if buf.length > maxBytes then
          .error (invalidInput ("attachment too large (>" ++ toString maxBytes ++ " bytes)"))
        else .ok buf

/-- `read_sandboxed_file` on a path. -/
def readPath (host : Host) (root requested : FsPath OsName) (maxBytes : Nat) :
    Except RimapError Content := do
  let (canonicalParent, name) ← checkContainment host root requested
  let dir ← openAmbientDir host (.ofPlace canonicalParent) "failed to open attachment directory"
  readLeaf host dir name maxBytes

def readSandboxedFile (host : Host) (root : FsPath OsName) (requested : String)
    (maxBytes : Nat) : Except RimapError Content :=
  readPath host root (pathBuf requested) maxBytes

/-! ## What each accepts -/

section Accepts

variable {host : Host}

theorem openAmbientDir_eq_ok_iff {path : FsPath OsName} {message : String}
    {place : List OsName} :
    openAmbientDir host path message = .ok place ↔
      host.canonicalize path = some place ∧ host.node place = some .dir := by
  unfold openAmbientDir
  constructor
  · intro h
    split at h
    · cases h
    · rename_i place' hplace
      split at h
      · rename_i hdir
        cases h
        exact ⟨hplace, hdir⟩
      · cases h
  · rintro ⟨hplace, hdir⟩
    simp only [hplace, hdir]

theorem destPath_some_eq_ok_iff {d : String} {root fallback path : FsPath OsName} :
    destPath host (some d) root fallback = .ok path ↔
      ∃ place, host.canonicalize (pathBuf d) = some place ∧ path = .ofPlace place ∧
        path.startsWith root = true := by
  unfold destPath
  dsimp only
  constructor
  · intro h
    split at h
    · cases h
    · rename_i place hplace
      split at h
      · rename_i hstarts
        cases h
        exact ⟨place, hplace, rfl, hstarts⟩
      · cases h
  · rintro ⟨place, hplace, rfl, hstarts⟩
    simp only [hplace, hstarts, if_true]

theorem resolveDestDir_eq_ok_iff {destDir : Option String} {root fallback : FsPath OsName}
    {dest : DestDir} :
    resolveDestDir host destDir root fallback = .ok dest ↔
      destPath host destDir root fallback = .ok dest.canonical ∧
        host.canonicalize dest.canonical = some dest.dir ∧ host.node dest.dir = some .dir := by
  unfold resolveDestDir
  constructor
  · intro h
    obtain ⟨path, hpath, h⟩ := bind_eq_ok h
    obtain ⟨dir, hdir, h⟩ := bind_eq_ok h
    cases h
    exact ⟨hpath, openAmbientDir_eq_ok_iff.mp hdir⟩
  · rintro ⟨hpath, hdir⟩
    rw [hpath]
    simp only [bind, Except.bind, openAmbientDir_eq_ok_iff.mpr hdir]

/-- A directory above a real place is its own canonical path. -/
theorem canonicalize_above {place above : List OsName} (hreal : host.Real place)
    (habove : above <+: place) : host.canonicalize (.ofPlace above) = some above := by
  refine FileSystem.canonicalize_ofPlace ?_
  obtain ⟨below, rfl⟩ := habove
  rcases below with _ | ⟨name, below⟩
  · rwa [List.append_nil] at hreal
  · obtain ⟨node, hnode, -⟩ := hreal
    refine Tree.real_of_dir (Tree.dir_of_append (List.cons_ne_nil name below) ?_)
    rw [hnode]
    exact Option.some_ne_none node

/-- What the writer accepts: nothing, unless the root is its own canonical path. -/
theorem resolveDestDir_accepts_iff (root : DownloadRoot host) (d : String) :
    (∃ dest, resolveDestDir host (some d) root.path root.path = .ok dest) ↔
      root.path = .ofPlace root.place ∧
        ∃ place, host.canonicalize (pathBuf d) = some place ∧ host.node place = some .dir ∧
          root.place <+: place := by
  constructor
  · rintro ⟨dest, hdest⟩
    obtain ⟨hpath, hdir, hnode⟩ := resolveDestDir_eq_ok_iff.mp hdest
    obtain ⟨place, hplace, hcanonical, hstarts⟩ := destPath_some_eq_ok_iff.mp hpath
    have hreal := FileSystem.real_of_canonicalize hplace
    rw [hcanonical, FileSystem.canonicalize_ofPlace hreal] at hdir
    obtain rfl := Option.some.inj hdir
    rw [hcanonical] at hstarts
    obtain ⟨above, hroot, habove⟩ := FsPath.startsWith_ofPlace.mp hstarts
    have hresolves := root.resolves
    rw [hroot, canonicalize_above hreal habove] at hresolves
    obtain rfl := Option.some.inj hresolves
    exact ⟨hroot, dest.dir, hplace, hnode, habove⟩
  · rintro ⟨hroot, place, hplace, hnode, hbelow⟩
    have hreal := FileSystem.real_of_canonicalize hplace
    refine ⟨⟨.ofPlace place, place⟩, resolveDestDir_eq_ok_iff.mpr
      ⟨?_, FileSystem.canonicalize_ofPlace hreal, hnode⟩⟩
    refine destPath_some_eq_ok_iff.mpr ⟨place, hplace, rfl, ?_⟩
    rw [hroot]
    exact FsPath.startsWith_ofPlace.mpr ⟨root.place, rfl, hbelow⟩

theorem checkContainment_eq_ok_iff {root requested : FsPath OsName} {dir : List OsName}
    {name : OsName} :
    checkContainment host root requested = .ok (dir, name) ↔
      ∃ parent, requested = parent.join name ∧ host.canonicalize parent = some dir ∧
        ∃ canonicalRoot, host.canonicalize root = some canonicalRoot ∧ canonicalRoot <+: dir := by
  unfold checkContainment
  constructor
  · intro h
    split at h
    · rename_i parent name' hparent hname
      split at h
      · cases h
      · rename_i canonicalParent hcanonical
        split at h
        · cases h
        · rename_i canonicalRoot hroot
          split at h
          · rename_i hstarts
            cases h
            obtain ⟨above, heq, habove⟩ := FsPath.startsWith_ofPlace.mp hstarts
            obtain rfl := FsPath.ofPlace_injective heq
            exact ⟨parent, FsPath.eq_join_of_parent (Option.filter_eq_some_iff.mp hparent).1 hname,
              hcanonical, canonicalRoot, hroot, habove⟩
          · cases h
    · cases h
  · rintro ⟨parent, rfl, hparent, canonicalRoot, hroot, hbelow⟩
    have hnonempty := (FileSystem.canonicalize_eq_some_iff.mp hparent).1
    have hstarts : (FsPath.ofPlace dir).startsWith (.ofPlace canonicalRoot) = true :=
      FsPath.startsWith_ofPlace.mpr ⟨canonicalRoot, rfl, hbelow⟩
    have hfilter : (some parent).filter (!·.isEmpty) = some parent := by simp [hnonempty]
    simp only [FsPath.parent_join, FsPath.fileName_join, hfilter, hparent, hroot, hstarts, if_true]

theorem readLeaf_eq_ok_iff {dir : List OsName} {name : OsName} {maxBytes : Nat}
    {content : Content} :
    readLeaf host dir name maxBytes = .ok content ↔
      host.node (dir ++ [name]) = some (.file content) ∧ content.length ≤ maxBytes := by
  unfold readLeaf
  constructor
  · intro h
    split at h
    · cases h
    · cases h
    · cases h
    · rename_i found hnode
      split at h
      · cases h
      · rename_i hsize
        have hall : found.take (maxBytes + 1) = found := List.take_of_length_le (by omega)
        rw [hall, if_neg hsize] at h
        cases h
        exact ⟨hnode, by omega⟩
  · rintro ⟨hnode, hsize⟩
    have hall : content.take (maxBytes + 1) = content := List.take_of_length_le (by omega)
    have hsize' : ¬content.length > maxBytes := by omega
    simp only [hnode, hall, if_neg hsize']

/-- What the reader accepts: a regular file in a directory at the canonical root or below. -/
theorem readPath_eq_ok_iff {root requested : FsPath OsName} {maxBytes : Nat}
    {content : Content} :
    readPath host root requested maxBytes = .ok content ↔
      ∃ dir name, checkContainment host root requested = .ok (dir, name) ∧
        host.node (dir ++ [name]) = some (.file content) ∧ content.length ≤ maxBytes := by
  unfold readPath
  constructor
  · intro h
    obtain ⟨⟨dir, name⟩, hchecked, h⟩ := bind_eq_ok h
    obtain ⟨dir', hopen, h⟩ := bind_eq_ok h
    obtain ⟨parent, -, hparent, -⟩ := checkContainment_eq_ok_iff.mp hchecked
    have hcanonical := (openAmbientDir_eq_ok_iff.mp hopen).1
    rw [FileSystem.canonicalize_ofPlace (FileSystem.real_of_canonicalize hparent)] at hcanonical
    obtain rfl := Option.some.inj hcanonical
    exact ⟨dir, name, hchecked, readLeaf_eq_ok_iff.mp h⟩
  · rintro ⟨dir, name, hchecked, hfile⟩
    have hdir := Tree.dir_of_node hfile.1
    have hopen : openAmbientDir host (.ofPlace dir) "failed to open attachment directory" =
        .ok dir :=
      openAmbientDir_eq_ok_iff.mpr
        ⟨FileSystem.canonicalize_ofPlace (Tree.real_of_dir hdir), hdir⟩
    rw [hchecked]
    simp only [bind, Except.bind, hopen, readLeaf_eq_ok_iff.mpr hfile]

/-- Where the writer may write, the reader may read. -/
theorem below_of_resolveDestDir {root : DownloadRoot host} {destDir : Option String}
    {dest : DestDir} (h : resolveDestDir host destDir root.path root.path = .ok dest) :
    root.place <+: dest.dir := by
  obtain ⟨hpath, hdir, -⟩ := resolveDestDir_eq_ok_iff.mp h
  rcases destDir with _ | d
  · have hroot : root.path = dest.canonical := Except.ok.inj hpath
    rw [← hroot, root.resolves] at hdir
    exact Option.some.inj hdir ▸ List.prefix_refl _
  · obtain ⟨-, place, hplace, -, hprefix⟩ := (resolveDestDir_accepts_iff root d).mp ⟨dest, h⟩
    obtain ⟨place', hplace', hcanonical, -⟩ := destPath_some_eq_ok_iff.mp hpath
    have hreal := FileSystem.real_of_canonicalize hplace'
    rw [hcanonical, FileSystem.canonicalize_ofPlace hreal] at hdir
    rw [hplace] at hplace'
    obtain rfl := Option.some.inj hplace'
    exact Option.some.inj hdir ▸ hprefix

/-- What the reader returns is the content of a file at the canonical root or below. -/
theorem inside_of_readPath {root : DownloadRoot host} {requested : FsPath OsName}
    {maxBytes : Nat} {content : Content}
    (h : readPath host root.path requested maxBytes = .ok content) :
    ∃ place, host.canonicalize requested = some place ∧
      host.node place = some (.file content) ∧ root.place <+: place := by
  obtain ⟨dir, name, hchecked, hfile, -⟩ := readPath_eq_ok_iff.mp h
  obtain ⟨parent, rfl, hparent, canonicalRoot, hroot, hbelow⟩ :=
    checkContainment_eq_ok_iff.mp hchecked
  rw [root.resolves] at hroot
  obtain rfl := Option.some.inj hroot
  have hplace := FileSystem.canonicalize_join hparent (Tree.dir_of_node hfile) ⟨_, hfile, rfl⟩
  exact ⟨dir ++ [name], hplace, hfile, hbelow.trans (List.prefix_append dir [name])⟩

end Accepts

/-! ## What was written can be read -/

/-- The entries of the directory at a place. -/
def Lists (host : Host) (place : List OsName) (dir : Directory) : Prop :=
  ∀ name, host.node (place ++ [name]) = dir.node name

/-- The host after a directory has changed. -/
structure Updated (host : Host) (place : List OsName) (dir' : Directory) (host' : Host) :
    Prop where
  lists : Lists host' place dir'
  rest : ∀ other, (∀ name, other ≠ place ++ [name]) → host'.node other = host.node other
  cwd : host'.cwd = host.cwd
  maxLinks : host'.maxLinks = host.maxLinks

theorem node_append {dir dir' : Directory} {added : List (OsName × Node OsName Content)}
    (h : dir'.entries = dir.entries ++ added) {name : OsName} {node : Node OsName Content}
    (hnode : dir.node name = some node) : dir'.node name = some node := by
  unfold Directory.node at hnode ⊢
  obtain ⟨entry, hentry, rfl⟩ := Option.map_eq_some_iff.mp hnode
  rw [h, List.find?_append, hentry]
  rfl

theorem find?_fresh {dir dir' : Directory} {name : OsName} {node : Node OsName Content}
    (h : dir'.entries = dir.entries ++ [(name, node)]) :
    dir.entries.find? (fun e => e.1 == name) = none := by
  have hnodup := dir'.nodup
  rw [h, List.map_append, List.nodup_append] at hnodup
  refine List.find?_eq_none.mpr ?_
  intro e he
  have hne := hnodup.2.2 e.1 (List.mem_map_of_mem he) name (by simp)
  simpa using hne

theorem node_fresh {dir dir' : Directory} {name : OsName} {node : Node OsName Content}
    (h : dir'.entries = dir.entries ++ [(name, node)]) : dir.node name = none := by
  rw [Directory.node, find?_fresh h]
  rfl

theorem node_added {dir dir' : Directory} {name : OsName} {node : Node OsName Content}
    (h : dir'.entries = dir.entries ++ [(name, node)]) : dir'.node name = some node := by
  rw [Directory.node, h, List.find?_append, find?_fresh h]
  simp

theorem node_append_of_ne {dir dir' : Directory} {name other : OsName}
    {node : Node OsName Content} (h : dir'.entries = dir.entries ++ [(name, node)])
    (hother : other ≠ name) : dir'.node other = dir.node other := by
  have hne : (name == other) = false := beq_eq_false_iff_ne.mpr hother.symm
  rw [Directory.node, Directory.node, h, List.find?_append]
  simp [hne]

section Written

variable {host host' : Host} {place : List OsName} {dir dir' : Directory}

/-- There is such a host for every file that is placed. -/
theorem exists_updated {name : OsName} {data : Content} (hdir : host.node place = some .dir)
    (hlists : Lists host place dir)
    (hentries : dir'.entries = dir.entries ++ [(name, .file data)]) :
    ∃ host', Updated host place dir' host' := by
  have hfree : host.node (place ++ [name]) = none := by
    rw [hlists name]
    exact node_fresh hentries
  let tree' := host.insertFile place name data hdir hfree
  have hcwd : tree'.node host.cwd = some .dir := by
    have hne : host.cwd ≠ place ++ [name] := by
      intro heq
      have hcwd := host.cwd_dir
      rw [heq, hfree] at hcwd
      cases hcwd
    exact (if_neg hne).trans host.cwd_dir
  refine ⟨{ host with toTree := tree', cwd_dir := hcwd }, fun other => ?_, fun other hother => ?_,
    rfl, rfl⟩
  · by_cases hother : other = name
    · rw [hother, node_added hentries]
      exact if_pos rfl
    · have hne : place ++ [other] ≠ place ++ [name] := by simpa using hother
      rw [node_append_of_ne hentries hother, ← hlists other]
      exact if_neg hne
  · exact if_neg (hother name)

theorem Updated.extends {added : List (OsName × Node OsName Content)}
    (h : Updated host place dir' host') (hlists : Lists host place dir)
    (hentries : dir'.entries = dir.entries ++ added) : host'.Extends host.toTree := by
  intro other node hnode
  by_cases hbelow : ∃ name, other = place ++ [name]
  · obtain ⟨name, rfl⟩ := hbelow
    rw [h.lists name]
    rw [hlists name] at hnode
    exact node_append hentries hnode
  · rw [h.rest other fun name heq => hbelow ⟨name, heq⟩]
    exact hnode

theorem Updated.canonicalize {added : List (OsName × Node OsName Content)}
    (h : Updated host place dir' host') (hlists : Lists host place dir)
    (hentries : dir'.entries = dir.entries ++ added) {path : FsPath OsName}
    {dest : List OsName} (hpath : host.canonicalize path = some dest) :
    host'.canonicalize path = some dest := by
  obtain ⟨hnonempty, hwalks⟩ := FileSystem.canonicalize_eq_some_iff.mp hpath
  refine FileSystem.canonicalize_eq_some_iff.mpr ⟨hnonempty, ?_⟩
  rw [h.cwd, h.maxLinks]
  exact hwalks.extends (h.extends hlists hentries)

/-- A file that was placed passes the reader's checks, and is read as it was written. -/
theorem readPath_of_placement {root : DownloadRoot host} {destDir : Option String}
    {dest : DestDir} {data : Content} {path : FsPath OsName} {maxBytes : Nat}
    (hdest : resolveDestDir host destDir root.path root.path = .ok dest)
    (hlists : Lists host dest.dir dir)
    (hplaced : Placement dest.canonical dir data (.ok path, dir'))
    (hupdated : Updated host dest.dir dir' host') (hsize : data.length ≤ maxBytes) :
    readPath host' root.path path maxBytes = .ok data := by
  obtain ⟨name, rfl, hentries⟩ := hplaced
  obtain ⟨-, hdir, -⟩ := resolveDestDir_eq_ok_iff.mp hdest
  refine readPath_eq_ok_iff.mpr ⟨dest.dir, name, ?_, ?_, hsize⟩
  · exact checkContainment_eq_ok_iff.mpr ⟨dest.canonical, rfl,
      hupdated.canonicalize hlists hentries hdir, root.place,
      hupdated.canonicalize hlists hentries root.resolves, below_of_resolveDestDir hdest⟩
  · rw [hupdated.lists name]
    exact node_added hentries

end Written

/-! ## The main result -/

/-- What was asked for is an existing directory, the canonical root or below. -/
def ResolvesInside {host : Host} (root : DownloadRoot host) (d : String) : Prop :=
  ∃ place, host.canonicalize (pathBuf d) = some place ∧ host.node place = some .dir ∧
    root.place <+: place

structure Agree {host : Host} (root : DownloadRoot host) (d : String) : Prop where
  accepts : (∃ dest, resolveDestDir host (some d) root.path root.path = .ok dest) ↔
    ResolvesInside root d
  readsWritten : ∀ (destDir : Option String) (dest : DestDir) (dir dir' : Directory)
    (filename : String) (data : Content) (stamp : TempStamp) (faults : Faults)
    (path : FsPath OsName) (host' : Host),
    resolveDestDir host destDir root.path root.path = .ok dest → Lists host dest.dir dir →
    writeAttachment dest.canonical dir filename data stamp faults = (.ok path, dir') →
    Updated host dest.dir dir' host' →
    (∃ checked, checkContainment host' root.path path = .ok checked) ∧
      readPath host' root.path path data.length = .ok data
  readsInside : ∀ (requested : String) (maxBytes : Nat) (content : Content),
    readSandboxedFile host root.path requested maxBytes = .ok content →
    ∃ place, host.canonicalize (pathBuf requested) = some place ∧
      host.node place = some (.file content) ∧ root.place <+: place

/-- **The two sandboxes.**  They agree for a root that is its own canonical path; for any
    other the writer refuses even what is inside.  What was written can always be read,
    and nothing else is read than what is inside. -/
theorem sandboxes_agree_iff (host : Host) (root : DownloadRoot host) (d : String) :
    Agree root d ↔ root.path = .ofPlace root.place ∨ ¬ResolvesInside root d := by
  have haccepts := resolveDestDir_accepts_iff root d
  constructor
  · intro hagree
    by_cases hinside : ResolvesInside root d
    · exact .inl (haccepts.mp (hagree.accepts.mpr hinside)).1
    · exact .inr hinside
  · intro hroot
    refine ⟨?_, ?_, fun requested maxBytes content hread => inside_of_readPath hread⟩
    · rw [haccepts]
      refine ⟨fun h => h.2, fun h => ⟨?_, h⟩⟩
      rcases hroot with hroot | hnot
      · exact hroot
      · exact absurd h hnot
    · intro destDir dest dir dir' filename data stamp faults path host' hdest hlists hwrite hupdated
      have hplaced := writeAttachment_placement dest.canonical dir filename data stamp faults
      rw [hwrite] at hplaced
      have hread := readPath_of_placement hdest hlists hplaced hupdated (Nat.le_refl data.length)
      obtain ⟨place, name, hchecked, -⟩ := readPath_eq_ok_iff.mp hread
      exact ⟨⟨(place, name), hchecked⟩, hread⟩

/-- A directory `/srv`, and a link `/downloads` to it. -/
def linkedTree : Tree OsName Content where
  node place :=
    if place = [] ∨ place = [.utf8 "srv"] then some .dir
    else if place = [.utf8 "downloads"] then some (.symlink (.ofPlace [.utf8 "srv"]))
    else none
  root := rfl
  closed place name h := by
    rcases place with _ | ⟨first, rest⟩
    · rfl
    · simp at h

def linkedHost : Host where
  toTree := linkedTree
  cwd := []
  cwd_dir := rfl
  maxLinks := 40
  osError _ := ""

def linkedRoot : DownloadRoot linkedHost where
  path := pathBuf "/downloads"
  place := [.utf8 "srv"]
  resolves := by decide
  isDir := by decide

/-- With a root behind a link, the writer refuses the root itself. -/
theorem resolveDestDir_refuses_root :
    ¬∀ (host : Host) (root : DownloadRoot host) (d : String), Agree root d := by
  intro hall
  have hinside : ResolvesInside linkedRoot "/downloads" :=
    ⟨[.utf8 "srv"], by decide, by decide, List.prefix_refl _⟩
  have haccepted := (hall linkedHost linkedRoot "/downloads").accepts.mpr hinside
  have hroot := ((resolveDestDir_accepts_iff linkedRoot "/downloads").mp haccepted).1
  revert hroot
  decide

end RustyImap.Sandbox
