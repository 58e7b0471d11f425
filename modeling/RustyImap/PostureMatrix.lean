import RustyImap.Errors

/-!
# Posture matrix and its runtime merge with per-tool overrides

`rimap-core/src/posture_matrix.rs` (the compile-time table) and
`rimap-authz/src/matrix.rs` (`EffectiveMatrix`).  A `BTreeMap` keyed by the
enumeration `ToolName` is a partial function on it.
-/

namespace RustyImap

/-- The four supported postures, least to most capable. -/
inductive Posture where
  | readonly
  | draftSafe
  | full
  | destructive
deriving DecidableEq, Repr

/-- Canonical form used in config files and tool descriptions. -/
def Posture.asStr : Posture → String
  | .readonly => "readonly"
  | .draftSafe => "draft-safe"
  | .full => "full"
  | .destructive => "destructive"

/-- Compile-time truth table, columns `[readonly, draft_safe, full, destructive]`. -/
def POSTURE_MATRIX : List (ToolName × List Bool) :=
  [(.listFolders, [true, true, true, true]),
   (.search, [true, true, true, true]),
   (.searchAdvanced, [false, false, true, true]),
   (.fetchMessage, [true, true, true, true]),
   (.fetchMessageHtml, [false, false, true, true]),
   (.listAttachments, [true, true, true, true]),
   (.downloadAttachment, [true, true, true, true]),
   (.exportMessages, [false, false, false, false]),
   (.markRead, [false, true, true, true]),
   (.markUnread, [false, true, true, true]),
   (.flag, [false, true, true, true]),
   (.unflag, [false, true, true, true]),
   (.addLabel, [false, true, true, true]),
   (.removeLabel, [false, true, true, true]),
   (.listLabels, [true, true, true, true]),
   (.moveMessage, [false, true, true, true]),
   (.createDraft, [false, true, true, true]),
   (.createDraftHtml, [false, false, true, true]),
   (.sendEmail, [false, false, true, true]),
   (.forward, [false, false, true, true]),
   (.deleteMessage, [false, false, true, true]),
   (.createFolder, [false, false, true, true]),
   (.renameFolder, [false, false, true, true]),
   (.expunge, [false, false, false, true]),
   (.deleteFolder, [false, false, false, true])]

def postureIndex : Posture → Nat
  | .readonly => 0
  | .draftSafe => 1
  | .full => 2
  | .destructive => 3

/-- Is the tool allowed at the base posture, ignoring overrides?  The two
    infrastructure tools have no row and fall through to `false`. -/
def baseAllows (posture : Posture) (tool : ToolName) : Bool :=
  match POSTURE_MATRIX.find? (fun row => row.1 == tool) with
  | some row => row.2.getD (postureIndex posture) false
  | none => false

theorem baseAllows_infrastructure (posture : Posture) {tool : ToolName}
    (h : tool.isInfrastructure = true) : baseAllows posture tool = false := by
  cases tool <;> simp [ToolName.isInfrastructure] at h <;> cases posture <;> decide

/-- Override verdict of a `[security.tools]` entry. -/
inductive Verdict where
  | allow
  | deny
deriving DecidableEq, Repr

/-- The resolved override map of one account. -/
abbrev Overrides := ToolName → Option Verdict

/-- Effective authorization matrix: base posture merged with overrides. -/
structure EffectiveMatrix where
  allowed : ToolName → Option Bool
  posture : Posture

namespace EffectiveMatrix

/-- The merged verdict for one tool: an override wins over the posture. -/
def effective (posture : Posture) (overrides : Overrides) (tool : ToolName) : Bool :=
  match overrides tool with
  | none => baseAllows posture tool
  | some .allow => true
  | some .deny => false

/-- `EffectiveMatrix::build`: one entry for every tool of `ToolName::all`. -/
def build (posture : Posture) (overrides : Overrides) : EffectiveMatrix where
  allowed := ToolName.all.foldl
    (fun allowed tool => Function.update allowed tool (some (effective posture overrides tool)))
    (fun _ => none)
  posture := posture

/-- `*self.allowed.get(&tool).unwrap_or(&false)`. -/
def allows (m : EffectiveMatrix) (tool : ToolName) : Bool := (m.allowed tool).getD false

def check (m : EffectiveMatrix) (tool : ToolName) : Except AuthzError Unit :=
  if m.allows tool then .ok () else .error (.postureDenied tool)

/-- The advertised set for `list_tools`, in declaration order. -/
def advertised (m : EffectiveMatrix) : List ToolName := ToolName.all.filter m.allows

/-- The fold of `build` overwrites exactly the entries of the tools it visits. -/
theorem foldl_update_apply (f : ToolName → Bool) (tools : List ToolName)
    (init : ToolName → Option Bool) (tool : ToolName) :
    tools.foldl (fun allowed t => Function.update allowed t (some (f t))) init tool =
      if tool ∈ tools then some (f tool) else init tool := by
  induction tools generalizing init with
  | nil => simp
  | cons head tail ih =>
      rw [List.foldl_cons, ih]
      by_cases htail : tool ∈ tail
      · simp [htail]
      · by_cases hhead : tool = head
        · subst hhead; simp [htail]
        · simp [htail, hhead]

@[simp] theorem allows_build (posture : Posture) (overrides : Overrides) (tool : ToolName) :
    (build posture overrides).allows tool = effective posture overrides tool := by
  simp only [allows, build]
  rw [foldl_update_apply, if_pos (ToolName.mem_all tool)]
  rfl

@[simp] theorem mem_advertised {m : EffectiveMatrix} {tool : ToolName} :
    tool ∈ m.advertised ↔ m.allows tool = true := by
  simp [advertised]

theorem nodup_advertised (m : EffectiveMatrix) : m.advertised.Nodup :=
  ToolName.nodup_all.filter _

theorem check_eq_ok {m : EffectiveMatrix} {tool : ToolName} :
    m.check tool = .ok () ↔ m.allows tool = true := by
  unfold check
  split <;> simp_all

/-- Only an explicit `allow` override lets the matrix admit an infrastructure
    tool: the base table has no row for it. -/
theorem effective_infrastructure {posture : Posture} {overrides : Overrides} {tool : ToolName}
    (h : tool.isInfrastructure = true) :
    effective posture overrides tool = true ↔ overrides tool = some .allow := by
  unfold effective
  rcases hov : overrides tool with _ | (_ | _) <;>
    simp [baseAllows_infrastructure posture h]

end EffectiveMatrix

end RustyImap
