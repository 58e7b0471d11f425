import Mathlib.Data.List.Nodup
import Mathlib.Data.List.Forall2

/-!
# Attachment part numbers, listed and downloaded

`list_attachments` numbers the parts of a message from the server's
BODYSTRUCTURE (`rimap-server/src/tools/retrieval/part_walker.rs` and
`list_attachments.rs`); `download_attachment` numbers the parts of the raw
message as `mail_parser` lays them out (`rimap-content/src/parse/raw_parts.rs`).
A client takes a part id from the first and hands it to the second.

Of an attachment the model keeps the id, the size and which leaf it is; of a
raw part the id, the body, the file name and its index.  The MIME type strings
and the file name of a listed attachment are decorations of the same node.

`leaves` is the numbering both walkers implement, up to one choice: whether a
`message/rfc822` node is opened.  The lister opens it and the downloader does
not, and the last section says for which trees that is visible.
-/

namespace RustyImap.PartNumbering

/-- IMAP `BODYSTRUCTURE`. -/
inductive BodyStructure where
  | single (mimeType mimeSubtype : String) (params dispositionParams : List (String × String))
      (encoding : String) (size : Nat)
  | multipart (subtype : String) (parts : List BodyStructure)
  | message (mimeSubtype : String) (body : BodyStructure)

/-- A step down the tree: to a child of a multipart, or into an embedded message. -/
inductive PathStep where
  | child (i : Nat)
  | inner
deriving DecidableEq, Repr

/-- A node handed to the visitor.  The path stands for the reference to the
    node: it says which node of the tree this is. -/
structure Visit where
  partId : String
  node : BodyStructure
  path : List PathStep

/-! ## The lister -/

def MAX_PART_DEPTH : Nat := 64

def leafPartId (pre : String) : String := if pre = "" then "1" else pre

def childPartId (pre : String) (index : Nat) : String :=
  if pre = "" then toString index else pre ++ "." ++ toString index

/-- `walk_inner`.  The first argument is the number of levels left, so that it
    is `0` when `depth > MAX_PART_DEPTH`. -/
def walkInner : Nat → BodyStructure → String → List PathStep → List Visit
  | 0, _, _, _ => []
  | _ + 1, .single mt st ps ds enc size, pre, path =>
      [⟨leafPartId pre, .single mt st ps ds enc size, path⟩]
  | remaining + 1, .multipart _ parts, pre, path =>
      parts.zipIdx.flatMap fun part =>
        walkInner remaining part.1 (childPartId pre (part.2 + 1)) (path ++ [.child part.2])
  | remaining + 1, .message st body, pre, path =>
      ⟨leafPartId pre, .message st body, path⟩ ::
        walkInner remaining body (leafPartId pre) (path ++ [.inner])

def walkBodyStructure (bs : BodyStructure) : List Visit :=
  walkInner (MAX_PART_DEPTH + 1) bs "" []

def eqIgnoreAsciiCase (a b : String) : Bool :=
  a.toList.map Char.toLower == b.toList.map Char.toLower

/-- `text/plain` and `text/html` are body parts, not attachments. -/
def isInlineText (mimeType mimeSubtype : String) : Bool :=
  eqIgnoreAsciiCase mimeType "text" &&
    (eqIgnoreAsciiCase mimeSubtype "plain" || eqIgnoreAsciiCase mimeSubtype "html")

structure AttachmentInfo where
  partId : String
  sizeBytes : Nat
  path : List PathStep
deriving DecidableEq, Repr

/-- The visitor of `collect_attachments`. -/
def attachmentOf (visit : Visit) : Option AttachmentInfo :=
  match visit.node with
  | .single mimeType mimeSubtype _ _ _ size =>
      if isInlineText mimeType mimeSubtype then none
      else some ⟨visit.partId, size, visit.path⟩
  | _ => none

def collectAttachments (bs : BodyStructure) : List AttachmentInfo :=
  (walkBodyStructure bs).filterMap attachmentOf

/-! ## The downloader -/

/-- A part as `mail_parser` stores it, in one flat list; `sub_parts()` is
    `Some` for a multipart only, and an embedded message is a leaf. -/
structure MessagePart where
  subParts : Option (List Nat)
  contents : List UInt8
  attachmentName : Option String
deriving DecidableEq, Repr

def MessagePart.isMultipart (part : MessagePart) : Bool := part.subParts.isSome

inductive ContentError where
  | malformed (reason : String)
  | parserPanic
deriving DecidableEq, Repr

/-- `index` says which part of the message the body was taken from. -/
structure RawPart where
  partId : String
  body : List UInt8
  filename : Option String
  index : Nat
deriving DecidableEq, Repr

def partToRaw (parts : List MessagePart) (idx : Nat) (partId : String) :
    Except ContentError RawPart :=
  match parts[idx]? with
  | none => .error (.malformed ("part index " ++ toString idx ++ " outside msg.parts"))
  | some part => .ok ⟨partId, part.contents, part.attachmentName, idx⟩

def MAX_MIME_DEPTH : Nat := 64

/-- `walk`, with the levels left as in `walkInner`. -/
def walk (parts : List MessagePart) : Nat → Nat → String → Except ContentError (List RawPart)
  | 0, _, _ => .ok []
  | remaining + 1, idx, pre =>
      match parts[idx]? with
      | none => .error (.malformed ("sub_parts index " ++ toString idx ++ " outside msg.parts"))
      | some part =>
          match part.subParts with
          | some children => do
              let found ← children.zipIdx.mapM fun child =>
                walk parts remaining child.1 (childPartId pre (child.2 + 1))
              return found.flatten
          | none => do
              let raw ← partToRaw parts idx (leafPartId pre)
              return [raw]

/-- `walk_attachment_parts` on a message that has been parsed. -/
def walkAttachmentParts (parts : List MessagePart) : Except ContentError (List RawPart) :=
  match parts[0]? with
  | none => .error (.malformed "message has no parts")
  | some root =>
      if root.isMultipart then walk parts (MAX_MIME_DEPTH + 1) 0 ""
      else do
        let raw ← partToRaw parts 0 "1"
        return [raw]

/-- The lookup of `download_attachment`. -/
def findPart (parts : List MessagePart) (partId : String) :
    Except ContentError (Option RawPart) := do
  let found ← walkAttachmentParts parts
  return found.find? fun part => part.partId == partId

/-! ## One message, two representations -/

/-- The part at `idx` and the node `bs` have the same shape.  An embedded
    message is a single part; what is inside it is not in the list. -/
inductive Mirrors (parts : List MessagePart) : Nat → BodyStructure → Prop where
  | single {idx : Nat} {part : MessagePart} {mt st : String} {ps ds : List (String × String)}
      {enc : String} {size : Nat} (hpart : parts[idx]? = some part)
      (hleaf : part.subParts = none) : Mirrors parts idx (.single mt st ps ds enc size)
  | message {idx : Nat} {part : MessagePart} {st : String} {body : BodyStructure}
      (hpart : parts[idx]? = some part) (hleaf : part.subParts = none) :
      Mirrors parts idx (.message st body)
  | multipart {idx : Nat} {part : MessagePart} {subtype : String} {children : List Nat}
      {bodies : List BodyStructure} (hpart : parts[idx]? = some part)
      (hsub : part.subParts = some children)
      (hchildren : List.Forall₂ (Mirrors parts) children bodies) :
      Mirrors parts idx (.multipart subtype bodies)

/-- The part that a position of the tree denotes.  A position inside an embedded
    message denotes none. -/
def partAt (parts : List MessagePart) : Nat → List PathStep → Option Nat
  | idx, [] => some idx
  | idx, .child i :: rest =>
      match parts[idx]? with
      | none => none
      | some part =>
          match part.subParts.bind (·[i]?) with
          | none => none
          | some c => partAt parts c rest
  | _, .inner :: _ => none

/-! ## The numbering -/

/-- The numbered leaves, with an embedded message taken as a leaf (`atMessage`)
    or opened. -/
def leaves (atMessage : Bool) : Nat → BodyStructure → String → List PathStep → List Visit
  | 0, _, _, _ => []
  | _ + 1, .single mt st ps ds enc size, pre, path =>
      [⟨leafPartId pre, .single mt st ps ds enc size, path⟩]
  | remaining + 1, .multipart _ parts, pre, path =>
      parts.zipIdx.flatMap fun part =>
        leaves atMessage remaining part.1 (childPartId pre (part.2 + 1))
          (path ++ [.child part.2])
  | remaining + 1, .message st body, pre, path =>
      if atMessage then [⟨leafPartId pre, .message st body, path⟩]
      else leaves atMessage remaining body (leafPartId pre) (path ++ [.inner])

/-- What the lister collects are the leaves with messages opened. -/
theorem walkInner_filterMap (remaining : Nat) (bs : BodyStructure) (pre : String)
    (path : List PathStep) :
    (walkInner remaining bs pre path).filterMap attachmentOf =
      (leaves false remaining bs pre path).filterMap attachmentOf := by
  induction remaining generalizing bs pre path with
  | zero => rfl
  | succ remaining ih =>
      cases bs with
      | single => rfl
      | multipart subtype parts =>
          simp only [walkInner, leaves, List.filterMap_flatMap, ih]
      | message st body =>
          simp only [walkInner, leaves, Bool.false_eq_true, if_false]
          rw [List.filterMap_cons, ih]
          rfl

/-- What holds of the leaf at a node, and of a node's leaves when it holds of its
    children's, holds of every leaf. -/
theorem forall_mem_leaves {P : String → List PathStep → Visit → Prop} {atMessage : Bool}
    (hleaf : ∀ pre path node, P pre path ⟨leafPartId pre, node, path⟩)
    (hchild : ∀ {pre path index i visit},
      P (childPartId pre index) (path ++ [.child i]) visit → P pre path visit)
    (hinner : ∀ {pre path visit},
      P (leafPartId pre) (path ++ [.inner]) visit → P pre path visit)
    (remaining : Nat) (bs : BodyStructure) (pre : String) (path : List PathStep) :
    ∀ visit ∈ leaves atMessage remaining bs pre path, P pre path visit := by
  induction remaining generalizing bs pre path with
  | zero => intro visit h; cases h
  | succ remaining ih =>
      intro visit h
      cases bs with
      | single mt st ps ds enc size =>
          rw [leaves, List.mem_singleton] at h
          subst h
          exact hleaf pre path _
      | multipart subtype parts =>
          simp only [leaves, List.mem_flatMap] at h
          obtain ⟨part, -, hvisit⟩ := h
          exact hchild (ih _ _ _ visit hvisit)
      | message st body =>
          cases atMessage with
          | true =>
              rw [leaves, if_pos rfl, List.mem_singleton] at h
              subst h
              exact hleaf pre path _
          | false =>
              rw [leaves, if_neg Bool.false_ne_true] at h
              exact hinner (ih _ _ _ visit h)

theorem leaves_path (atMessage : Bool) (remaining : Nat) (bs : BodyStructure) (pre : String)
    (path : List PathStep) :
    ∀ visit ∈ leaves atMessage remaining bs pre path, path <+: visit.path :=
  forall_mem_leaves (P := fun _ path visit => path <+: visit.path)
    (fun _ _ _ => List.prefix_rfl)
    (fun h => (List.prefix_append _ _).trans h)
    (fun h => (List.prefix_append _ _).trans h) remaining bs pre path

/-- A leaf that is not inside an embedded message is a leaf either way. -/
theorem mem_leaves_of_not_inner {remaining : Nat} {bs : BodyStructure} {pre : String}
    {path : List PathStep} {visit : Visit} (h : visit ∈ leaves false remaining bs pre path)
    (hinner : .inner ∉ visit.path) : visit ∈ leaves true remaining bs pre path := by
  induction remaining generalizing bs pre path with
  | zero => cases h
  | succ remaining ih =>
      cases bs with
      | single mt st ps ds enc size => exact h
      | multipart subtype parts =>
          simp only [leaves, List.mem_flatMap] at h ⊢
          obtain ⟨part, hpart, hvisit⟩ := h
          exact ⟨part, hpart, ih hvisit⟩
      | message st body =>
          rw [leaves, if_neg Bool.false_ne_true] at h
          have hpath := leaves_path false remaining body _ _ visit h
          exact absurd (hpath.subset (by simp)) hinner

/-! ## Ids of distinct leaves are distinct

A child's id is its parent's with one more number, so the ids below two
siblings differ where their numbers do. -/

/-- The characters in front of a child's number. -/
def stem (pre : String) : List Char := if pre = "" then [] else pre.toList ++ ['.']

/-- The id is `pre` itself or continues it by a dot. -/
def Extends (pre id : String) : Prop :=
  pre = "" ∨ id = pre ∨ ∃ rest, id = pre ++ "." ++ rest

theorem toList_childPartId (pre : String) (index : Nat) :
    (childPartId pre index).toList = stem pre ++ Nat.toDigits 10 index := by
  unfold childPartId stem
  split
  · simp [Nat.toString_eq_repr, Nat.toList_repr]
  · simp [Nat.toString_eq_repr, Nat.toList_repr]

theorem dot_not_mem_toDigits (n : Nat) : '.' ∉ Nat.toDigits 10 n := by
  intro h
  have hdigit := Nat.isDigit_of_mem_toDigits (by decide) (by decide) h
  exact absurd hdigit (by decide)

theorem toDigits_injective {m n : Nat} (h : Nat.toDigits 10 m = Nat.toDigits 10 n) : m = n := by
  rw [← Nat.ofDigitChars_ten_toDigits (n := m), h, Nat.ofDigitChars_ten_toDigits]

theorem childPartId_ne_empty (pre : String) (index : Nat) : childPartId pre index ≠ "" := by
  intro h
  have hlist := toList_childPartId pre index
  rw [h] at hlist
  have hnil : stem pre ++ Nat.toDigits 10 index = [] := hlist.symm
  exact Nat.toDigits_ne_nil (List.append_eq_nil_iff.mp hnil).2

/-- Up to the first dot after the stem, an id below a child spells the child's
    number. -/
theorem number_of_extends {pre id : String} {index : Nat}
    (h : Extends (childPartId pre index) id) :
    (id.toList.drop (stem pre).length).takeWhile (· != '.') = Nat.toDigits 10 index := by
  have hdigits : ∀ c ∈ Nat.toDigits 10 index, (c != '.') = true := by
    intro c hc
    have hne : c ≠ '.' := fun heq => dot_not_mem_toDigits index (heq ▸ hc)
    simpa using hne
  rcases h with hempty | rfl | ⟨rest, rfl⟩
  · exact absurd hempty (childPartId_ne_empty pre index)
  · rw [toList_childPartId, List.drop_left]
    rw [← List.append_nil (Nat.toDigits 10 index), List.takeWhile_append_of_pos hdigits]
    simp
  · have hlist : (childPartId pre index ++ "." ++ rest).toList =
        stem pre ++ (Nat.toDigits 10 index ++ '.' :: rest.toList) := by
      simp [toList_childPartId]
    rw [hlist, List.drop_left, List.takeWhile_append_of_pos hdigits]
    simp

theorem index_eq_of_extends {pre id : String} {i j : Nat}
    (hi : Extends (childPartId pre i) id) (hj : Extends (childPartId pre j) id) : i = j := by
  apply toDigits_injective
  rw [← number_of_extends hi, number_of_extends hj]

theorem extends_of_child {pre id : String} {index : Nat}
    (h : Extends (childPartId pre index) id) : Extends pre id := by
  by_cases hpre : pre = ""
  · exact Or.inl hpre
  · right
    right
    have hchild : childPartId pre index = pre ++ "." ++ toString index := by
      simp [childPartId, hpre]
    rcases h with hempty | rfl | ⟨rest, rfl⟩
    · exact absurd hempty (childPartId_ne_empty pre index)
    · exact ⟨toString index, hchild⟩
    · refine ⟨toString index ++ "." ++ rest, ?_⟩
      rw [hchild]
      simp [String.append_assoc]

theorem extends_of_leafPartId {pre id : String} (h : Extends (leafPartId pre) id) :
    Extends pre id := by
  by_cases hpre : pre = ""
  · exact Or.inl hpre
  · rwa [leafPartId, if_neg hpre] at h

theorem extends_leafPartId (pre : String) : Extends pre (leafPartId pre) := by
  by_cases hpre : pre = ""
  · exact Or.inl hpre
  · exact Or.inr (Or.inl (if_neg hpre))

theorem leaves_extends (atMessage : Bool) (remaining : Nat) (bs : BodyStructure) (pre : String)
    (path : List PathStep) :
    ∀ visit ∈ leaves atMessage remaining bs pre path, Extends pre visit.partId :=
  forall_mem_leaves (P := fun pre _ visit => Extends pre visit.partId)
    (fun pre _ _ => extends_leafPartId pre) extends_of_child extends_of_leafPartId
    remaining bs pre path

theorem nodup_leaves (atMessage : Bool) (remaining : Nat) (bs : BodyStructure) (pre : String)
    (path : List PathStep) :
    ((leaves atMessage remaining bs pre path).map Visit.partId).Nodup := by
  induction remaining generalizing bs pre path with
  | zero => exact List.nodup_nil
  | succ remaining ih =>
      cases bs with
      | single mt st ps ds enc size => exact List.nodup_singleton _
      | multipart subtype parts =>
          simp only [leaves, List.map_flatMap]
          rw [List.nodup_flatMap]
          refine ⟨fun part _ => ih _ _ _, ?_⟩
          have hindices : parts.zipIdx.Pairwise fun a b => a.2 ≠ b.2 := by
            have hnodup : (parts.zipIdx.map Prod.snd).Nodup := by
              rw [List.zipIdx_map_snd]
              exact List.nodup_range'
            exact List.pairwise_map.mp hnodup
          apply hindices.imp
          intro a b hne id ha hb
          obtain ⟨visit, hvisit, rfl⟩ := List.mem_map.mp ha
          obtain ⟨visit', hvisit', heq⟩ := List.mem_map.mp hb
          have hext := leaves_extends _ _ _ _ _ visit hvisit
          have hext' := leaves_extends _ _ _ _ _ visit' hvisit'
          rw [heq] at hext'
          exact hne (Nat.succ.inj (index_eq_of_extends hext hext'))
      | message st body =>
          cases atMessage with
          | true => exact List.nodup_singleton _
          | false =>
              rw [leaves, if_neg Bool.false_ne_true]
              exact ih _ _ _

/-! ## The downloader enumerates the leaves with messages closed -/

theorem partAt_append (parts : List MessagePart) (idx : Nat) (path rest : List PathStep) :
    partAt parts idx (path ++ rest) =
      (partAt parts idx path).bind fun i => partAt parts i rest := by
  induction path generalizing idx with
  | nil => rfl
  | cons step path ih =>
      cases step with
      | inner => rfl
      | child i =>
          simp only [List.cons_append, partAt]
          cases parts[idx]? with
          | none => rfl
          | some part =>
              simp only
              cases part.subParts.bind (·[i]?) with
              | none => rfl
              | some c => exact ih c

theorem partAt_inner {parts : List MessagePart} {idx : Nat} {path : List PathStep}
    (h : .inner ∈ path) : partAt parts idx path = none := by
  obtain ⟨before, after, rfl⟩ := List.append_of_mem h
  rw [partAt_append]
  cases partAt parts idx before <;> rfl

/-- The raw part and the visit carry one id and mean one part. -/
def SameLeaf (parts : List MessagePart) (raw : RawPart) (visit : Visit) : Prop :=
  raw.partId = visit.partId ∧ partAt parts 0 visit.path = some raw.index

theorem mapM_flatten_forall₂ {α β γ δ ε : Type*} {R : γ → δ → Prop} {f : α → Except ε (List γ)}
    {g : β → List δ} {xs : List α} {ys : List β}
    (h : List.Forall₂ (fun x y => ∃ found, f x = .ok found ∧ List.Forall₂ R found (g y)) xs ys) :
    ∃ found, xs.mapM f = .ok found ∧ List.Forall₂ R found.flatten (ys.flatMap g) := by
  induction h with
  | nil => exact ⟨[], rfl, .nil⟩
  | @cons x y xs ys hhead _ ih =>
      obtain ⟨first, hfirst, hR⟩ := hhead
      obtain ⟨rest, hrest, hR'⟩ := ih
      refine ⟨first :: rest, ?_, ?_⟩
      · simp only [List.mapM_cons, hfirst, hrest]
        rfl
      · rw [List.flatten_cons, List.flatMap_cons]
        exact List.rel_append hR hR'

theorem forall₂_zipIdx {α β : Type*} {R : α → β → Prop} {xs : List α} {ys : List β}
    (h : List.Forall₂ R xs ys) (n : Nat) :
    List.Forall₂ (fun x y => R x.1 y.1 ∧ x.2 = y.2 ∧ n ≤ x.2 ∧ xs[x.2 - n]? = some x.1)
      (xs.zipIdx n) (ys.zipIdx n) := by
  induction h generalizing n with
  | nil => exact .nil
  | @cons x y xs ys hhead _ ih =>
      rw [List.zipIdx_cons, List.zipIdx_cons]
      refine .cons ⟨hhead, rfl, Nat.le_refl n, by simp⟩ ((ih (n + 1)).imp ?_)
      rintro a b ⟨hR, hidx, hle, hget⟩
      refine ⟨hR, hidx, Nat.le_of_succ_le hle, ?_⟩
      have hshift : a.2 - n = (a.2 - (n + 1)) + 1 := by omega
      rw [hshift, List.getElem?_cons_succ]
      exact hget

theorem walk_eq_leaves {parts : List MessagePart} (remaining idx : Nat) (bs : BodyStructure)
    (pre : String) (path : List PathStep) (hmirrors : Mirrors parts idx bs)
    (hat : partAt parts 0 path = some idx) :
    ∃ found, walk parts remaining idx pre = .ok found ∧
      List.Forall₂ (SameLeaf parts) found (leaves true remaining bs pre path) := by
  induction remaining generalizing idx bs pre path with
  | zero => exact ⟨[], rfl, .nil⟩
  | succ remaining ih =>
      cases hmirrors with
      | @single _ part mt st ps ds enc size hpart hleaf =>
          refine ⟨[⟨leafPartId pre, part.contents, part.attachmentName, idx⟩], ?_, ?_⟩
          · simp only [walk, hpart, hleaf, partToRaw]
            rfl
          · exact .cons ⟨rfl, hat⟩ .nil
      | @message _ part st body hpart hleaf =>
          refine ⟨[⟨leafPartId pre, part.contents, part.attachmentName, idx⟩], ?_, ?_⟩
          · simp only [walk, hpart, hleaf, partToRaw]
            rfl
          · rw [leaves, if_pos rfl]
            exact .cons ⟨rfl, hat⟩ .nil
      | @multipart _ part subtype children bodies hpart hsub hchildren =>
          have hstep : List.Forall₂
              (fun (child : Nat × Nat) (body : BodyStructure × Nat) =>
                ∃ found, walk parts remaining child.1 (childPartId pre (child.2 + 1)) =
                    .ok found ∧
                  List.Forall₂ (SameLeaf parts) found
                    (leaves true remaining body.1 (childPartId pre (body.2 + 1))
                      (path ++ [.child body.2])))
              children.zipIdx bodies.zipIdx := by
            apply (forall₂_zipIdx hchildren 0).imp
            rintro ⟨child, i⟩ ⟨body, j⟩ ⟨hmirrors, hidx, -, hget⟩
            simp only at hmirrors hidx hget
            subst hidx
            apply ih _ _ _ _ hmirrors
            rw [partAt_append, hat, Option.bind_some]
            simp only [Nat.sub_zero] at hget
            simp [partAt, hpart, hsub, hget]
          obtain ⟨found, hfound, hsame⟩ := mapM_flatten_forall₂ hstep
          refine ⟨found.flatten, ?_, hsame⟩
          simp only [walk, hpart, hsub, hfound]
          rfl

/-- `walk_attachment_parts` succeeds and lists the leaves in order. -/
theorem walkAttachmentParts_eq_leaves {parts : List MessagePart} {bs : BodyStructure}
    (hmirrors : Mirrors parts 0 bs) :
    ∃ found, walkAttachmentParts parts = .ok found ∧
      List.Forall₂ (SameLeaf parts) found (leaves true (MAX_MIME_DEPTH + 1) bs "" []) := by
  obtain ⟨found, hfound, hsame⟩ :=
    walk_eq_leaves (MAX_MIME_DEPTH + 1) 0 bs "" [] hmirrors rfl
  refine ⟨found, ?_, hsame⟩
  -- the special case of a single-part root is what `walk` does anyway
  cases hmirrors with
  | single hpart hleaf =>
      simp only [walk, hpart, hleaf] at hfound
      simp only [walkAttachmentParts, hpart, MessagePart.isMultipart, hleaf]
      exact hfound
  | message hpart hleaf =>
      simp only [walk, hpart, hleaf] at hfound
      simp only [walkAttachmentParts, hpart, MessagePart.isMultipart, hleaf]
      exact hfound
  | multipart hpart hsub _ =>
      simp only [walkAttachmentParts, hpart, MessagePart.isMultipart, hsub]
      exact hfound

/-- The lookup by id returns the part that the leaf of that id denotes. -/
theorem findPart_of_mem_leaves {parts : List MessagePart} {bs : BodyStructure}
    (hmirrors : Mirrors parts 0 bs) {visit : Visit}
    (hvisit : visit ∈ leaves true (MAX_MIME_DEPTH + 1) bs "" []) :
    ∃ raw, findPart parts visit.partId = .ok (some raw) ∧ SameLeaf parts raw visit := by
  obtain ⟨found, hfound, hsame⟩ := walkAttachmentParts_eq_leaves hmirrors
  have hnodup := nodup_leaves true (MAX_MIME_DEPTH + 1) bs "" []
  suffices h : ∃ raw, found.find? (fun part => part.partId == visit.partId) = some raw ∧
      SameLeaf parts raw visit by
    obtain ⟨raw, hraw, hleaf⟩ := h
    refine ⟨raw, ?_, hleaf⟩
    simp only [findPart, hfound]
    rw [← hraw]
    rfl
  clear hfound
  generalize leaves true (MAX_MIME_DEPTH + 1) bs "" [] = visits at hsame hvisit hnodup
  induction hsame with
  | nil => cases hvisit
  | @cons raw head found visits hhead _ ih =>
      rw [List.map_cons, List.nodup_cons] at hnodup
      rcases List.mem_cons.mp hvisit with rfl | hmem
      · exact ⟨raw, by simp [hhead.1], hhead⟩
      · have hne : raw.partId ≠ visit.partId := by
          intro heq
          exact hnodup.1 (by rw [← hhead.1, heq]; exact List.mem_map_of_mem hmem)
        rw [List.find?_cons_of_neg (by simpa using hne)]
        exact ih hmem hnodup.2

/-! ## Where the two disagree -/

/-- Within the depth cap there is a part that is not inline text. -/
def hasAttachment : Nat → BodyStructure → Bool
  | 0, _ => false
  | _ + 1, .single mimeType mimeSubtype _ _ _ _ => !isInlineText mimeType mimeSubtype
  | remaining + 1, .multipart _ parts => parts.any (hasAttachment remaining)
  | remaining + 1, .message _ body => hasAttachment remaining body

/-- Within the depth cap there is such a part inside an embedded message. -/
def hasEmbeddedAttachment : Nat → BodyStructure → Bool
  | 0, _ => false
  | _ + 1, .single .. => false
  | remaining + 1, .multipart _ parts => parts.any (hasEmbeddedAttachment remaining)
  | remaining + 1, .message _ body => hasAttachment remaining body

theorem mem_zipIdx_of_mem {α : Type*} {x : α} {xs : List α} (h : x ∈ xs) :
    ∃ part ∈ xs.zipIdx, part.1 = x := by
  obtain ⟨i, hi⟩ := List.getElem?_of_mem h
  exact ⟨(x, i), List.mem_zipIdx_iff_getElem?.mpr hi, rfl⟩

theorem mem_of_mem_zipIdx {α : Type*} {part : α × Nat} {xs : List α} (h : part ∈ xs.zipIdx) :
    part.1 ∈ xs :=
  List.mem_of_getElem? (List.mem_zipIdx_iff_getElem?.mp h)

theorem hasAttachment_iff (remaining : Nat) (bs : BodyStructure) (pre : String)
    (path : List PathStep) :
    hasAttachment remaining bs = true ↔
      ∃ visit ∈ leaves false remaining bs pre path, (attachmentOf visit).isSome = true := by
  induction remaining generalizing bs pre path with
  | zero => simp [hasAttachment, leaves]
  | succ remaining ih =>
      cases bs with
      | single mt st ps ds enc size =>
          cases hinline : isInlineText mt st <;>
            simp [hasAttachment, leaves, attachmentOf, hinline]
      | multipart subtype parts =>
          simp only [hasAttachment, leaves, List.any_eq_true, List.mem_flatMap]
          constructor
          · rintro ⟨body, hmem, hbody⟩
            obtain ⟨part, hpart, rfl⟩ := mem_zipIdx_of_mem hmem
            obtain ⟨visit, hvisit, hsome⟩ := (ih part.1 _ _).mp hbody
            exact ⟨visit, ⟨part, hpart, hvisit⟩, hsome⟩
          · rintro ⟨visit, ⟨part, hpart, hvisit⟩, hsome⟩
            exact ⟨part.1, mem_of_mem_zipIdx hpart, (ih part.1 _ _).mpr ⟨visit, hvisit, hsome⟩⟩
      | message st body =>
          rw [hasAttachment, leaves, if_neg Bool.false_ne_true]
          exact ih body _ _

theorem hasEmbeddedAttachment_iff (remaining : Nat) (bs : BodyStructure) (pre : String)
    (path : List PathStep) (hpath : .inner ∉ path) :
    hasEmbeddedAttachment remaining bs = true ↔
      ∃ visit ∈ leaves false remaining bs pre path,
        (attachmentOf visit).isSome = true ∧ .inner ∈ visit.path := by
  induction remaining generalizing bs pre path with
  | zero => simp [hasEmbeddedAttachment, leaves]
  | succ remaining ih =>
      cases bs with
      | single mt st ps ds enc size => simp [hasEmbeddedAttachment, leaves, hpath]
      | multipart subtype parts =>
          have hchild : ∀ i, .inner ∉ path ++ [PathStep.child i] := by simp [hpath]
          simp only [hasEmbeddedAttachment, leaves, List.any_eq_true, List.mem_flatMap]
          constructor
          · rintro ⟨body, hmem, hbody⟩
            obtain ⟨part, hpart, rfl⟩ := mem_zipIdx_of_mem hmem
            obtain ⟨visit, hvisit, hfound⟩ := (ih part.1 _ _ (hchild part.2)).mp hbody
            exact ⟨visit, ⟨part, hpart, hvisit⟩, hfound⟩
          · rintro ⟨visit, ⟨part, hpart, hvisit⟩, hfound⟩
            exact ⟨part.1, mem_of_mem_zipIdx hpart,
              (ih part.1 _ _ (hchild part.2)).mpr ⟨visit, hvisit, hfound⟩⟩
      | message st body =>
          -- everything below carries the step into the message
          rw [hasEmbeddedAttachment, leaves, if_neg Bool.false_ne_true,
            hasAttachment_iff remaining body (leafPartId pre) (path ++ [.inner])]
          constructor
          · rintro ⟨visit, hvisit, hsome⟩
            have hinner := (leaves_path _ _ _ _ _ visit hvisit).subset
              (show PathStep.inner ∈ path ++ [.inner] by simp)
            exact ⟨visit, hvisit, hsome, hinner⟩
          · rintro ⟨visit, hvisit, hsome, -⟩
            exact ⟨visit, hvisit, hsome⟩

theorem collectAttachments_eq (bs : BodyStructure) :
    collectAttachments bs =
      (leaves false (MAX_PART_DEPTH + 1) bs "" []).filterMap attachmentOf :=
  walkInner_filterMap _ _ _ _

theorem attachmentOf_eq_some {visit : Visit} {info : AttachmentInfo}
    (h : attachmentOf visit = some info) : info.partId = visit.partId ∧ info.path = visit.path := by
  unfold attachmentOf at h
  split at h
  · split at h
    · cases h
    · cases h
      exact ⟨rfl, rfl⟩
  · cases h

theorem nodup_collectAttachments (bs : BodyStructure) :
    ((collectAttachments bs).map AttachmentInfo.partId).Nodup := by
  have hnodup := nodup_leaves false (MAX_PART_DEPTH + 1) bs "" []
  rw [collectAttachments_eq]
  refine List.Nodup.sublist ?_ hnodup
  generalize leaves false (MAX_PART_DEPTH + 1) bs "" [] = visits
  induction visits with
  | nil => exact List.Sublist.refl _
  | cons visit visits ih =>
      cases hinfo : attachmentOf visit with
      | none =>
          rw [List.filterMap_cons_none hinfo]
          exact ih.cons _
      | some info =>
          rw [List.filterMap_cons_some hinfo, List.map_cons, List.map_cons,
            (attachmentOf_eq_some hinfo).1]
          exact ih.cons_cons _

/-- The listed id leads the downloader to the listed leaf. -/
def Downloadable (parts : List MessagePart) (info : AttachmentInfo) : Prop :=
  ∃ raw, findPart parts info.partId = .ok (some raw) ∧ partAt parts 0 info.path = some raw.index

/-- **Listed ids can be downloaded, embedded messages apart.**  For a message
    whose parsed parts mirror the BODYSTRUCTURE: every listed id names, for the
    downloader, the leaf it was listed for, and distinct leaves have distinct
    ids, exactly when no attachment within the depth cap lies inside an
    embedded message. -/
theorem listed_downloadable_iff (parts : List MessagePart) (bs : BodyStructure)
    (hmirrors : Mirrors parts 0 bs) :
    ((∀ info ∈ collectAttachments bs, Downloadable parts info) ∧
        ((collectAttachments bs).map AttachmentInfo.partId).Nodup) ↔
      hasEmbeddedAttachment (MAX_PART_DEPTH + 1) bs = false := by
  have hembedded := hasEmbeddedAttachment_iff (MAX_PART_DEPTH + 1) bs "" [] (by simp)
  rw [collectAttachments_eq]
  constructor
  · rintro ⟨hall, -⟩
    by_contra hsome
    rw [Bool.not_eq_false, hembedded] at hsome
    obtain ⟨visit, hvisit, hinfo, hinner⟩ := hsome
    obtain ⟨info, hinfo⟩ := Option.isSome_iff_exists.mp hinfo
    obtain ⟨raw, -, hat⟩ := hall info (List.mem_filterMap.mpr ⟨visit, hvisit, hinfo⟩)
    rw [(attachmentOf_eq_some hinfo).2, partAt_inner hinner] at hat
    cases hat
  · intro hnone
    rw [← collectAttachments_eq]
    refine ⟨?_, nodup_collectAttachments bs⟩
    intro info hmem
    rw [collectAttachments_eq, List.mem_filterMap] at hmem
    obtain ⟨visit, hvisit, hinfo⟩ := hmem
    obtain ⟨hid, hpath⟩ := attachmentOf_eq_some hinfo
    have hinner : .inner ∉ visit.path := by
      intro hinner
      rw [hembedded.mpr ⟨visit, hvisit, by simp [hinfo], hinner⟩] at hnone
      cases hnone
    obtain ⟨raw, hraw, -, hat⟩ :=
      findPart_of_mem_leaves hmirrors (mem_leaves_of_not_inner hvisit hinner)
    exact ⟨raw, by rw [hid]; exact hraw, by rw [hpath]; exact hat⟩

def plainText : BodyStructure := .single "TEXT" "PLAIN" [] [] "7BIT" 12

def pdf : BodyStructure := .single "APPLICATION" "PDF" [] [("FILENAME", "a.pdf")] "BASE64" 900

/-- The parsed form of a two-part message, whatever its parts are. -/
def twoParts : List MessagePart :=
  [⟨some [1, 2], [], none⟩, ⟨none, [104, 105], none⟩, ⟨none, [37, 80, 68, 70], some "a.pdf"⟩]

theorem listed_downloadable_report :
    (∀ info ∈ collectAttachments (.multipart "MIXED" [plainText, pdf]),
        Downloadable twoParts info) ∧
      ((collectAttachments (.multipart "MIXED" [plainText, pdf])).map
        AttachmentInfo.partId).Nodup :=
  (listed_downloadable_iff twoParts (.multipart "MIXED" [plainText, pdf])
    (.multipart rfl rfl (.cons (.single rfl rfl) (.cons (.single rfl rfl) .nil)))).mpr (by decide)

/-- A forwarded message with an attachment: the lister offers `2.2`, which the
    downloader does not know. -/
theorem embedded_attachment_not_downloadable :
    ¬ ∀ (parts : List MessagePart) (bs : BodyStructure), Mirrors parts 0 bs →
      (∀ info ∈ collectAttachments bs, Downloadable parts info) ∧
        ((collectAttachments bs).map AttachmentInfo.partId).Nodup := by
  intro hall
  have hdownload := (hall twoParts
    (.multipart "MIXED" [plainText, .message "RFC822" (.multipart "MIXED" [plainText, pdf])])
    (.multipart rfl rfl (.cons (.single rfl rfl) (.cons (.message rfl rfl) .nil)))).1
  obtain ⟨raw, hraw, -⟩ := hdownload ⟨"2.2", 900, [.child 1, .inner, .child 1]⟩ (by decide)
  have hmissing : findPart twoParts "2.2" = .ok none := by decide
  rw [hmissing] at hraw
  cases hraw

end RustyImap.PartNumbering
