import Mathlib.Data.List.Induction

/-!
# Paths in a tree of directories

Places in a tree of directories, files and symbolic links, and what a path names there.
A **place** is the list of names from the root down to it; a **path** is a text that has
to be walked, since a component can be a link or `..`.

`walk` is `realpath(3)`: it ends at a place that no link stands on the way to, so the
place itself, read as a path, is walked to itself.
-/

namespace RustyImap.FileTree

/-! ## Paths -/

inductive Component (ν : Type) where
  | cur
  | parent
  | normal (name : ν)
deriving DecidableEq, Repr

structure FsPath (ν : Type) where
  absolute : Bool
  components : List (Component ν)
deriving DecidableEq, Repr

namespace FsPath

variable {ν : Type}

def parent (path : FsPath ν) : Option (FsPath ν) :=
  if path.components.isEmpty then none
  else some { path with components := path.components.dropLast }

def fileName (path : FsPath ν) : Option ν :=
  match path.components.getLast? with
  | some (.normal name) => some name
  | _ => none

def join (path : FsPath ν) (name : ν) : FsPath ν :=
  { path with components := path.components ++ [.normal name] }

def startsWith [DecidableEq ν] (path base : FsPath ν) : Bool :=
  path.absolute == base.absolute && base.components.isPrefixOf path.components

/-- The empty text, which names nothing. -/
def isEmpty (path : FsPath ν) : Bool := !path.absolute && path.components.isEmpty

def ofPlace (place : List ν) : FsPath ν := ⟨true, place.map .normal⟩

theorem parent_join (path : FsPath ν) (name : ν) : (path.join name).parent = some path := by
  simp [parent, join]

theorem fileName_join (path : FsPath ν) (name : ν) : (path.join name).fileName = some name := by
  simp [fileName, join]

theorem eq_join_of_parent {path dir : FsPath ν} {name : ν} (hparent : path.parent = some dir)
    (hname : path.fileName = some name) : path = dir.join name := by
  rcases path with ⟨absolute, components⟩
  rcases List.eq_nil_or_concat components with rfl | ⟨before, last, rfl⟩
  · cases hparent
  · rw [List.concat_eq_append] at hparent hname ⊢
    obtain rfl : (⟨absolute, before⟩ : FsPath ν) = dir := by simpa [parent] using hparent
    have hlast : last = .normal name := by
      cases last <;> simp_all [fileName]
    rw [hlast]
    rfl

/-- What a place starts with are the places above it. -/
theorem startsWith_ofPlace [DecidableEq ν] {place : List ν} {base : FsPath ν} :
    (ofPlace place).startsWith base = true ↔
      ∃ above, base = ofPlace above ∧ above <+: place := by
  rcases base with ⟨absolute, components⟩
  simp only [startsWith, ofPlace, Bool.and_eq_true, beq_iff_eq, List.isPrefixOf_iff_prefix,
    FsPath.mk.injEq]
  constructor
  · rintro ⟨rfl, rest, hrest⟩
    obtain ⟨above, below, rfl, rfl, -⟩ := List.map_eq_append_iff.mp hrest.symm
    exact ⟨above, ⟨rfl, rfl⟩, List.prefix_append above below⟩
  · rintro ⟨above, ⟨rfl, rfl⟩, hprefix⟩
    exact ⟨rfl, hprefix.map _⟩

theorem ofPlace_injective : Function.Injective (ofPlace : List ν → FsPath ν) := by
  intro a b h
  exact (List.map_inj_right fun _ _ => Component.normal.inj).mp (FsPath.mk.inj h).2

end FsPath

/-! ## Trees -/

inductive Node (ν δ : Type) where
  | dir
  | file (data : δ)
  | symlink (target : FsPath ν)
deriving DecidableEq, Repr

def Node.isSymlink {ν δ : Type} : Node ν δ → Bool
  | .symlink _ => true
  | _ => false

/-- What stands at each place; only a directory has something below it. -/
structure Tree (ν δ : Type) where
  node : List ν → Option (Node ν δ)
  root : node [] = some .dir
  closed : ∀ place name, node (place ++ [name]) ≠ none → node place = some .dir

variable {ν δ : Type} {tree tree' : Tree ν δ}

namespace Tree

/-- Something is there, and it is not a link. -/
def Real (tree : Tree ν δ) (place : List ν) : Prop :=
  ∃ node, tree.node place = some node ∧ node.isSymlink = false

theorem real_of_dir {place : List ν} (h : tree.node place = some .dir) : tree.Real place :=
  ⟨.dir, h, rfl⟩

theorem dir_of_append {place below : List ν} (hbelow : below ≠ [])
    (h : tree.node (place ++ below) ≠ none) : tree.node place = some .dir := by
  induction below using List.reverseRecOn with
  | nil => exact absurd rfl hbelow
  | append_singleton before name ih =>
      rw [← List.append_assoc] at h
      have hbefore := tree.closed (place ++ before) name h
      rcases before with _ | ⟨first, rest⟩
      · rwa [List.append_nil] at hbefore
      · exact ih (List.cons_ne_nil first rest) (by simp [hbefore])

theorem dir_of_node {place : List ν} {name : ν} {node : Node ν δ}
    (h : tree.node (place ++ [name]) = some node) : tree.node place = some .dir := by
  refine tree.closed place name ?_
  rw [h]
  exact Option.some_ne_none node

theorem dir_dropLast {place : List ν} (h : tree.node place = some .dir) :
    tree.node place.dropLast = some .dir := by
  rcases List.eq_nil_or_concat place with rfl | ⟨before, name, rfl⟩
  · exact h
  · rw [List.concat_eq_append] at h
    rw [List.concat_eq_append, List.dropLast_concat]
    exact dir_of_node h

/-! ## Walking -/

/-- The components left to walk; `follow` goes on where a link leads. -/
def walkWith (tree : Tree ν δ) (follow : List ν → List (Component ν) → Option (List ν)) :
    List ν → List (Component ν) → Option (List ν)
  | place, [] => some place
  | place, component :: rest =>
      match tree.node place with
      | some .dir =>
          match component with
          | .cur => tree.walkWith follow place rest
          | .parent => tree.walkWith follow place.dropLast rest
          | .normal name =>
              match tree.node (place ++ [name]) with
              | none => none
              | some (.symlink target) =>
                  follow (if target.absolute then [] else place) (target.components ++ rest)
              | some _ => tree.walkWith follow (place ++ [name]) rest
      | _ => none

/-- A walk that follows at most so many links. -/
def walk (tree : Tree ν δ) : Nat → List ν → List (Component ν) → Option (List ν)
  | 0 => tree.walkWith fun _ _ => none
  | links + 1 => tree.walkWith (tree.walk links)

/-- The walks step by step. -/
inductive Walks (tree : Tree ν δ) : Nat → List ν → List (Component ν) → List ν → Prop where
  | done (links : Nat) (place : List ν) : Walks tree links place [] place
  | cur {links : Nat} {place dest : List ν} {rest : List (Component ν)}
      (hdir : tree.node place = some .dir) (hrest : Walks tree links place rest dest) :
      Walks tree links place (.cur :: rest) dest
  | parent {links : Nat} {place dest : List ν} {rest : List (Component ν)}
      (hdir : tree.node place = some .dir) (hrest : Walks tree links place.dropLast rest dest) :
      Walks tree links place (.parent :: rest) dest
  | link {links : Nat} {place dest : List ν} {name : ν} {target : FsPath ν}
      {rest : List (Component ν)} (hdir : tree.node place = some .dir)
      (hnode : tree.node (place ++ [name]) = some (.symlink target))
      (hrest : Walks tree links (if target.absolute then [] else place)
        (target.components ++ rest) dest) :
      Walks tree (links + 1) place (.normal name :: rest) dest
  | enter {links : Nat} {place dest : List ν} {name : ν} {rest : List (Component ν)}
      (hdir : tree.node place = some .dir) (hreal : tree.Real (place ++ [name]))
      (hrest : Walks tree links (place ++ [name]) rest dest) :
      Walks tree links place (.normal name :: rest) dest

theorem walkWith_real {follow : List ν → List (Component ν) → Option (List ν)} {place : List ν}
    {name : ν} {rest : List (Component ν)} (hdir : tree.node place = some .dir)
    (hreal : tree.Real (place ++ [name])) :
    tree.walkWith follow place (.normal name :: rest) =
      tree.walkWith follow (place ++ [name]) rest := by
  obtain ⟨node, hnode, hlink⟩ := hreal
  cases node with
  | symlink target => cases hlink
  | dir => simp only [walkWith, hdir, hnode]
  | file data => simp only [walkWith, hdir, hnode]

theorem walk_of_walks {links : Nat} {place dest : List ν} {todo : List (Component ν)}
    (h : tree.Walks links place todo dest) : tree.walk links place todo = some dest := by
  induction h with
  | done links place => cases links <;> rfl
  | @cur links place dest rest hdir _ ih =>
      cases links <;> simpa only [walk, walkWith, hdir] using ih
  | @parent links place dest rest hdir _ ih =>
      cases links <;> simpa only [walk, walkWith, hdir] using ih
  | link hdir hnode _ ih => simpa only [walk, walkWith, hdir, hnode] using ih
  | @enter links place dest name rest hdir hreal _ ih =>
      cases links <;> rw [walk, walkWith_real hdir hreal] <;> exact ih

theorem walks_of_walkWith {links : Nat} {follow : List ν → List (Component ν) → Option (List ν)}
    (hfollow : ∀ {place target name link rest dest}, tree.node place = some .dir →
      tree.node (place ++ [name]) = some (.symlink link) →
      follow target (link.components ++ rest) = some dest →
      target = (if link.absolute then [] else place) →
      tree.Walks links place (.normal name :: rest) dest)
    {todo : List (Component ν)} {place dest : List ν}
    (h : tree.walkWith follow place todo = some dest) : tree.Walks links place todo dest := by
  induction todo generalizing place with
  | nil =>
      cases h
      exact .done links _
  | cons component rest ih =>
      unfold walkWith at h
      split at h
      · rename_i hdir
        cases component with
        | cur => exact .cur hdir (ih h)
        | parent => exact .parent hdir (ih h)
        | normal name =>
            dsimp only at h
            split at h
            · cases h
            · rename_i target hnode
              exact hfollow hdir hnode h rfl
            · rename_i node hlink hnode
              refine .enter hdir ⟨node, hnode, ?_⟩ (ih h)
              cases node with
              | symlink target => exact absurd rfl (hlink target)
              | _ => rfl
      · cases h

theorem walk_eq_some_iff {links : Nat} {place dest : List ν} {todo : List (Component ν)} :
    tree.walk links place todo = some dest ↔ tree.Walks links place todo dest := by
  refine ⟨?_, walk_of_walks⟩
  intro h
  induction links generalizing place todo dest with
  | zero => exact walks_of_walkWith (fun _ _ hnone _ => by cases hnone) h
  | succ links ih =>
      refine walks_of_walkWith (fun hdir hnode hrest htarget => ?_) h
      subst htarget
      exact .link hdir hnode (ih hrest)

/-- Every walk ends at a place that can be opened. -/
theorem Walks.real {links : Nat} {place dest : List ν} {todo : List (Component ν)}
    (h : tree.Walks links place todo dest) (hreal : tree.Real place) : tree.Real dest := by
  induction h with
  | done _ _ => exact hreal
  | cur _ _ ih => exact ih hreal
  | parent hdir _ ih => exact ih (real_of_dir (dir_dropLast hdir))
  | link hdir _ _ ih =>
      refine ih ?_
      split
      · exact real_of_dir tree.root
      · exact real_of_dir hdir
  | enter _ hnext _ ih => exact ih hnext

/-- The names down to such a place lead there. -/
theorem walks_below {links : Nat} {place below : List ν} (h : tree.Real (place ++ below)) :
    tree.Walks links place (below.map .normal) (place ++ below) := by
  induction below generalizing place with
  | nil =>
      rw [List.append_nil]
      exact .done links place
  | cons name rest ih =>
      have hrest : place ++ name :: rest = place ++ [name] ++ rest := by simp
      obtain ⟨node, hnode, hlink⟩ := h
      have hdir : tree.node place = some .dir :=
        dir_of_append (List.cons_ne_nil name rest) (by simp [hnode])
      rw [hrest] at hnode ⊢
      refine .enter hdir ?_ (ih ⟨node, hnode, hlink⟩)
      rcases rest with _ | ⟨next, rest⟩
      · rw [List.append_nil] at hnode
        exact ⟨node, hnode, hlink⟩
      · have hthere : tree.node (place ++ [name] ++ next :: rest) ≠ none := by
          rw [hnode]
          exact Option.some_ne_none node
        exact real_of_dir (dir_of_append (List.cons_ne_nil next rest) hthere)

/-- A walk goes on to a name that is no link. -/
theorem Walks.append_normal {links : Nat} {place dest : List ν} {todo : List (Component ν)}
    {name : ν} (h : tree.Walks links place todo dest) (hdir : tree.node dest = some .dir)
    (hreal : tree.Real (dest ++ [name])) :
    tree.Walks links place (todo ++ [.normal name]) (dest ++ [name]) := by
  induction h with
  | done links place => exact .enter hdir hreal (.done links _)
  | cur hplace _ ih => exact .cur hplace (ih hdir hreal)
  | parent hplace _ ih => exact .parent hplace (ih hdir hreal)
  | link hplace hnode _ ih =>
      refine .link hplace hnode ?_
      have hrest := ih hdir hreal
      rwa [List.append_assoc] at hrest
  | enter hplace hnext _ ih => exact .enter hplace hnext (ih hdir hreal)

/-- A new file in a directory. -/
def insertFile [DecidableEq ν] (tree : Tree ν δ) (place : List ν) (name : ν) (data : δ)
    (hdir : tree.node place = some .dir) (hfree : tree.node (place ++ [name]) = none) :
    Tree ν δ where
  node other := if other = place ++ [name] then some (.file data) else tree.node other
  root := by
    rw [if_neg (by simp)]
    exact tree.root
  closed above below h := by
    split at h
    · rename_i heq
      obtain ⟨rfl, -⟩ := List.append_inj' heq rfl
      rwa [if_neg (by simp)]
    · have habove := tree.closed above below h
      rw [if_neg]
      · exact habove
      · rintro rfl
        rw [hfree] at habove
        cases habove

/-- What is there stays there. -/
def Extends (tree' tree : Tree ν δ) : Prop :=
  ∀ place node, tree.node place = some node → tree'.node place = some node

theorem Extends.real (hext : tree'.Extends tree) {place : List ν} (h : tree.Real place) :
    tree'.Real place := by
  obtain ⟨node, hnode, hlink⟩ := h
  exact ⟨node, hext place node hnode, hlink⟩

theorem Walks.extends {links : Nat} {place dest : List ν} {todo : List (Component ν)}
    (h : tree.Walks links place todo dest) (hext : tree'.Extends tree) :
    tree'.Walks links place todo dest := by
  induction h with
  | done links place => exact .done links place
  | cur hdir _ ih => exact .cur (hext _ _ hdir) ih
  | parent hdir _ ih => exact .parent (hext _ _ hdir) ih
  | link hdir hnode _ ih => exact .link (hext _ _ hdir) (hext _ _ hnode) ih
  | enter hdir hreal _ ih => exact .enter (hext _ _ hdir) (hext.real hreal) ih

end Tree

/-! ## What a path names -/

/-- A tree with the directory that relative paths start in, and how many links one
    walk may follow. -/
structure FileSystem (ν δ : Type) extends Tree ν δ where
  cwd : List ν
  cwd_dir : node cwd = some .dir
  maxLinks : Nat

namespace FileSystem

variable {fs : FileSystem ν δ}

def canonicalize (fs : FileSystem ν δ) (path : FsPath ν) : Option (List ν) :=
  if path.isEmpty then none
  else fs.walk fs.maxLinks (if path.absolute then [] else fs.cwd) path.components

theorem canonicalize_eq_some_iff {path : FsPath ν} {place : List ν} :
    fs.canonicalize path = some place ↔ path.isEmpty = false ∧
      fs.Walks fs.maxLinks (if path.absolute then [] else fs.cwd) path.components place := by
  rw [canonicalize]
  split
  · rename_i hempty
    simp [hempty]
  · rename_i hempty
    rw [Tree.walk_eq_some_iff, Bool.not_eq_true] at *
    simp [hempty]

theorem real_of_canonicalize {path : FsPath ν} {place : List ν}
    (h : fs.canonicalize path = some place) : fs.Real place := by
  refine (canonicalize_eq_some_iff.mp h).2.real ?_
  split
  · exact Tree.real_of_dir fs.root
  · exact Tree.real_of_dir fs.cwd_dir

/-- Such a place, read as a path, is the path of itself. -/
theorem canonicalize_ofPlace {place : List ν} (h : fs.Real place) :
    fs.canonicalize (.ofPlace place) = some place := by
  rw [← List.nil_append place] at h
  exact canonicalize_eq_some_iff.mpr ⟨rfl, Tree.walks_below h⟩

theorem canonicalize_join {path : FsPath ν} {place : List ν} {name : ν}
    (h : fs.canonicalize path = some place) (hdir : fs.node place = some .dir)
    (hreal : fs.Real (place ++ [name])) :
    fs.canonicalize (path.join name) = some (place ++ [name]) := by
  have hwalk := (canonicalize_eq_some_iff.mp h).2.append_normal hdir hreal
  exact canonicalize_eq_some_iff.mpr ⟨by simp [FsPath.isEmpty, FsPath.join], hwalk⟩

end FileSystem

end RustyImap.FileTree
