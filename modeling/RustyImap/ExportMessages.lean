import RustyImap.Mbox
import RustyImap.MessageBuilder

/-!
# Exporting messages (`rimap-server/src/tools/retrieval/export_messages.rs`)

The handler asks the server for the sizes of the messages, fetches the bodies of those
that are there and small enough, frames them as one mbox and writes it into the
sandbox.  The server and the sandbox answer as they like and are parameters; what they
are asked, and what they answer, is kept in a log.
-/

namespace RustyImap.Export

open RustyImap.ContentParse
open RustyImap.Compose (invalidInput validateFolderInput)

/-! ## Data -/

def MAX_EXPORT_TOTAL_BYTES : Nat := 100 * 1024 * 1024
def MAX_EXPORT_UIDS : Nat := 100

structure ExportMessagesInput where
  folder : String
  uids : List NonZeroU32
  expectedUidvalidity : NonZeroU32
  destDir : Option String
  filename : Option String
  maxTotalBytes : Option Nat
  allowPartial : Option Bool

structure ExportedUid where
  uid : Nat
  sizeBytes : Nat
deriving DecidableEq, Repr

inductive ExportFailReason where
  | notFound
  | oversize
deriving DecidableEq, Repr

structure FailedUid where
  uid : Nat
  reason : ExportFailReason
deriving DecidableEq, Repr

structure ExportMessagesMeta where
  folder : String
  complete : Bool
  path : Option String
  partialPath : Option String
  sha256 : String
  messageCount : Nat
  totalBytes : Nat
  uidValidity : Nat
  succeeded : List ExportedUid
  failed : List FailedUid
deriving DecidableEq, Repr

inductive PreflightSize where
  | absent
  | presentUnknown
  | present (size : Nat)
deriving DecidableEq, Repr

inductive UidPlan where
  | skip (reason : ExportFailReason)
  | fetch
deriving DecidableEq, Repr

structure FetchLimits where
  expected : Nat
  perMsgCap : Nat
  budget : Nat

structure FetchOutcome where
  uid : Nat
  result : Except ExportFailReason Bytes

inductive Outcome where
  | abort (failed : List FailedUid)
  | proceed (complete : Bool) (bodies : List Bytes) (succeeded : List ExportedUid)
      (failed : List FailedUid)

/-! ## The world -/

/-- The uids that the server knows, with their sizes where it gives them. -/
abbrev Sizes := List (Nat × Option Nat)

/-- A question and its answer. -/
inductive Event where
  | sizes (answer : Except RimapError (Sizes × Option Nat))
  | body (uid limit : Nat) (answer : Except RimapError Bytes)
  | write (filename : String) (data : Bytes) (answer : Except RimapError String)

/-- The account (`ExportSource`), the sandbox and the clock; `σ` is all they depend on
    and `δ` a resolved directory. -/
structure Env (σ δ : Type) where
  fetchSizes : String → List Nat → Nat → σ → Except RimapError (Sizes × Option Nat) × σ
  fetchOneBody : String → Nat → Nat → Nat → σ → Except RimapError Bytes × σ
  maxFetchBodyBytes : Nat
  resolveDestDir : Option String → σ → Except RimapError δ × σ
  writeAttachment : δ → String → Bytes → σ → Except RimapError String × σ
  exportToken : σ → String × σ
  sha256Hex : Bytes → String

structure World (σ : Type) where
  state : σ
  log : List Event

/-- A computation that may fail; the log stays. -/
def Run (σ α : Type) : Type := World σ → Except RimapError α × World σ

namespace Run

variable {σ α β : Type}

def bind (m : Run σ α) (f : α → Run σ β) : Run σ β := fun w =>
  match m w with
  | (.ok a, w') => f a w'
  | (.error e, w') => (.error e, w')

instance : Monad (Run σ) where
  pure a := fun w => (.ok a, w)
  bind := Run.bind

def throw (e : RimapError) : Run σ α := fun w => (.error e, w)

/-- A check that asks nothing. -/
def lift (r : Except RimapError α) : Run σ α := fun w => (r, w)

/-- A question, with the log that it leaves. -/
def ask (question : σ → Except RimapError α × σ) (event : Except RimapError α → List Event) :
    Run σ α := fun w =>
  ((question w.state).1, ⟨(question w.state).2, w.log ++ event (question w.state).1⟩)

end Run

/-! ## The checks of the input -/

/-- The first of each uid; `seen` are those already taken. -/
def dedupUids (seen : List Nat) : List Nat → List Nat
  | [] => []
  | uid :: rest => if uid ∈ seen then dedupUids seen rest else uid :: dedupUids (uid :: seen) rest

def validateUids (uids : List NonZeroU32) : Except RimapError (List Nat) :=
  if uids.isEmpty then .error (invalidInput "uids must not be empty")
  else if MAX_EXPORT_UIDS < uids.length then
    .error (invalidInput ("uids exceeds the maximum of " ++ toString MAX_EXPORT_UIDS ++
      " per export"))
  else .ok (dedupUids [] (uids.map Subtype.val))

def clampTotalBytes (requested : Option Nat) : Nat :=
  (requested.map fun n => min n MAX_EXPORT_TOTAL_BYTES).getD MAX_EXPORT_TOTAL_BYTES

def sanitizeFilenamePrefix : Option String → Except RimapError String
  | none => .ok "messages"
  | some raw =>
      let trimmed := trimStr raw
      if trimmed != "" && decide (utf8Len trimmed ≤ 64) &&
          trimmed.toList.head?.any isAsciiAlphanumeric &&
          trimmed.toList.all fun c => isAsciiAlphanumeric c || c == '.' || c == '_' || c == '-' then
        .ok trimmed
      else
        .error (invalidInput ("filename prefix must match [A-Za-z0-9][A-Za-z0-9._-]\x7b0,63\x7d " ++
          "(conservative ASCII basename)"))

/-! ## The export -/

def incompleteExportError (failedUids : List Nat) : RimapError :=
  invalidInput ("export incomplete (set allow_partial=true to override); failed UIDs: " ++
    ", ".intercalate (failedUids.map toString))

/-- `size_by_uid`: of two entries for a uid the later one counts. -/
def preflightSize (sizes : Sizes) (uid : Nat) : PreflightSize :=
  match sizes.reverse.lookup uid with
  | none => .absent
  | some none => .presentUnknown
  | some (some size) => .present size

def classifyUid (size : PreflightSize) (perMsgCap : Nat) : UidPlan :=
  match size with
  | .absent => .skip .notFound
  | .present sz => if perMsgCap < sz then .skip .oversize else .fetch
  | .presentUnknown => .fetch

/-- What a uid adds to the advisory sum. -/
def eligibleSize (sizes : Sizes) (perMsgCap uid : Nat) : Option Nat :=
  match preflightSize sizes uid with
  | .present sz => if sz ≤ perMsgCap then some sz else none
  | .absent | .presentUnknown => none

variable {σ δ : Type}

def preflightSizes (env : Env σ δ) (folder : String) (uids : List Nat) (limits : FetchLimits) :
    Run σ Sizes := do
  let (sizes, uidValidity) ← Run.ask (env.fetchSizes folder uids limits.expected) fun answer =>
    [.sizes answer]
  if uidValidity.isNone then
    Run.throw (invalidInput
      "server omitted UIDVALIDITY; export_messages requires it to guard the mailbox")
  else if limits.budget < (uids.filterMap (eligibleSize sizes limits.perMsgCap)).sum then
    Run.throw (invalidInput "export exceeds max_total_bytes")
  else pure sizes

/-- The loop of `fetch_bodies`; `running` are the bytes so far. -/
def fetchBodies (env : Env σ δ) (folder : String) (sizes : Sizes) (limits : FetchLimits) :
    List Nat → Nat → Run σ (List FetchOutcome)
  | [], _ => pure []
  | uid :: rest, running =>
      match classifyUid (preflightSize sizes uid) limits.perMsgCap with
      | .skip reason => do
          let outcomes ← fetchBodies env folder sizes limits rest running
          pure (⟨uid, .error reason⟩ :: outcomes)
      | .fetch => do
          let bodyLimit := min limits.perMsgCap (limits.budget - running)
          let body ← Run.ask (env.fetchOneBody folder uid limits.expected bodyLimit)
            fun answer => [.body uid bodyLimit answer]
          if limits.budget < running + body.length then
            Run.throw (invalidInput "export exceeds max_total_bytes")
          else do
            let outcomes ← fetchBodies env folder sizes limits rest (running + body.length)
            pure (⟨uid, .ok body⟩ :: outcomes)

def bodyOf (outcome : FetchOutcome) : Option Bytes := outcome.result.toOption

def succeededOf (outcome : FetchOutcome) : Option ExportedUid :=
  match outcome.result with
  | .ok body => some ⟨outcome.uid, body.length⟩
  | .error _ => none

def failedOf (outcome : FetchOutcome) : Option FailedUid :=
  match outcome.result with
  | .ok _ => none
  | .error reason => some ⟨outcome.uid, reason⟩

def planOutcome (outcomes : List FetchOutcome) (allowPartial : Bool) : Outcome :=
  let failed := outcomes.filterMap failedOf
  if !failed.isEmpty && !allowPartial then .abort failed
  else .proceed failed.isEmpty (outcomes.filterMap bodyOf) (outcomes.filterMap succeededOf) failed

structure RunPlan (δ : Type) where
  folder : String
  dest : δ
  filenamePrefix : String       -- `prefix`
  uids : List Nat
  expected : Nat
  budget : Nat
  perMsgCap : Nat
  allowPartial : Bool

/-- The uids that the sizes already rule out. -/
def preflightFailed (sizes : Sizes) (perMsgCap : Nat) (uids : List Nat) : List Nat :=
  uids.filter fun uid => classifyUid (preflightSize sizes uid) perMsgCap != .fetch

/-- The report, with the path of what was written. -/
def exportReport (env : Env σ δ) (plan : RunPlan δ) (complete : Bool) (mbox : Bytes)
    (succeeded : List ExportedUid) (failed : List FailedUid) (written : Option String) :
    ExportMessagesMeta where
  folder := plan.folder
  complete := complete
  path := if complete then written else none
  partialPath := if complete then none else written
  sha256 := env.sha256Hex mbox
  messageCount := succeeded.length
  totalBytes := mbox.length
  uidValidity := plan.expected
  succeeded := succeeded
  failed := failed

/-- From the bodies to the file and the report. -/
def writeExport (env : Env σ δ) (plan : RunPlan δ) (complete : Bool) (bodies : List Bytes)
    (succeeded : List ExportedUid) (failed : List FailedUid) : Run σ ExportMessagesMeta :=
  let mbox := Mbox.buildMbox bodies
  if plan.budget < mbox.length then
    Run.throw (invalidInput "framed mbox exceeds max_total_bytes")
  else if succeeded.isEmpty then
    pure (exportReport env plan complete mbox succeeded failed none)
  else do
    let suffix := if complete then "mbox" else "partial.mbox"
    let token ← Run.ask (fun s => (.ok (env.exportToken s).1, (env.exportToken s).2)) fun _ => []
    let filename := plan.filenamePrefix ++ "-" ++ token ++ "." ++ suffix
    let written ← Run.ask (env.writeAttachment plan.dest filename mbox) fun answer =>
      [.write filename mbox answer]
    pure (exportReport env plan complete mbox succeeded failed (some written))

def runExport (env : Env σ δ) (plan : RunPlan δ) : Run σ ExportMessagesMeta := do
  let limits : FetchLimits := ⟨plan.expected, plan.perMsgCap, plan.budget⟩
  let sizes ← preflightSizes env plan.folder plan.uids limits
  let ruledOut := preflightFailed sizes plan.perMsgCap plan.uids
  if !plan.allowPartial && !ruledOut.isEmpty then
    Run.throw (incompleteExportError ruledOut)
  else do
    let outcomes ← fetchBodies env plan.folder sizes limits plan.uids 0
    match planOutcome outcomes plan.allowPartial with
    | .abort failed => Run.throw (incompleteExportError (failed.map FailedUid.uid))
    | .proceed complete bodies succeeded failed =>
        writeExport env plan complete bodies succeeded failed

/-- `handle`. -/
def exportMessages (env : Env σ δ) (input : ExportMessagesInput) : Run σ ExportMessagesMeta := do
  Run.lift (validateFolderInput "folder" input.folder)
  let filenamePrefix ← Run.lift (sanitizeFilenamePrefix input.filename)
  let uids ← Run.lift (validateUids input.uids)
  let dest ← Run.ask (env.resolveDestDir input.destDir) fun _ => []
  runExport env
    { folder := input.folder
      dest
      filenamePrefix
      uids
      expected := input.expectedUidvalidity.val
      budget := clampTotalBytes input.maxTotalBytes
      perMsgCap := env.maxFetchBodyBytes
      allowPartial := input.allowPartial.getD false }

/-! ## Runs -/

theorem Run.bind_cases {σ α β : Type} {m : Run σ α} {f : α → Run σ β} {w w' : World σ}
    {r : Except RimapError β} (h : (m >>= f) w = (r, w')) :
    (∃ a w₁, m w = (.ok a, w₁) ∧ f a w₁ = (r, w')) ∨ ∃ e, m w = (.error e, w') ∧ r = .error e := by
  change Run.bind m f w = (r, w') at h
  unfold Run.bind at h
  split at h
  · rename_i a w₁ hm
    exact .inl ⟨a, w₁, hm, h⟩
  · rename_i e w₁ hm
    cases h
    exact .inr ⟨e, hm, rfl⟩

/-- A question adds its event to the log. -/
theorem Run.ask_cases {σ α : Type} {question : σ → Except RimapError α × σ}
    {event : Except RimapError α → List Event} {w w' : World σ} {r : Except RimapError α}
    (h : Run.ask question event w = (r, w')) : w'.log = w.log ++ event r := by
  cases h
  rfl

theorem Run.lift_cases {σ α : Type} {x r : Except RimapError α} {w w' : World σ}
    (h : Run.lift x w = (r, w')) : x = r ∧ w' = w := by
  cases h
  exact ⟨rfl, rfl⟩

/-! ## Uids taken once -/

theorem dedupUids_eq (seen uids : List Nat) :
    dedupUids seen uids = (uids.filter fun uid => decide (uid ∉ seen)).eraseDups := by
  induction uids generalizing seen with
  | nil => rfl
  | cons uid rest ih =>
      rw [dedupUids, List.filter_cons]
      by_cases hseen : uid ∈ seen
      · simp [hseen, ih]
      · simp only [hseen, if_false, not_false_eq_true, decide_true, if_true]
        rw [List.eraseDups_cons, ih, List.filter_filter]
        congr 2
        apply List.filter_congr
        intro other _
        simp only [List.mem_cons, not_or, Bool.decide_and, decide_not]
        rfl

theorem validateUids_ok {uids : List NonZeroU32} {deduped : List Nat}
    (h : validateUids uids = .ok deduped) : deduped = (uids.map Subtype.val).eraseDups := by
  unfold validateUids at h
  split at h
  · cases h
  · split at h
    · cases h
    · rw [← Except.ok.inj h, dedupUids_eq]
      simp

/-! ## The bodies -/

/-- A uid that is there and not too large. -/
def fetchable (sizes : Sizes) (perMsgCap uid : Nat) : Bool :=
  classifyUid (preflightSize sizes uid) perMsgCap == .fetch

/-- What is fetched for some uids, and what the log has of it. -/
inductive Fetched (sizes : Sizes) (perMsgCap : Nat) :
    List Nat → List FetchOutcome → List Event → Prop where
  | nil : Fetched sizes perMsgCap [] [] []
  | skip {uid : Nat} {reason : ExportFailReason} {rest : List Nat} {outcomes : List FetchOutcome}
      {events : List Event}
      (hplan : classifyUid (preflightSize sizes uid) perMsgCap = .skip reason)
      (hrest : Fetched sizes perMsgCap rest outcomes events) :
      Fetched sizes perMsgCap (uid :: rest) (⟨uid, .error reason⟩ :: outcomes) events
  | fetch {uid limit : Nat} {body : Bytes} {rest : List Nat} {outcomes : List FetchOutcome}
      {events : List Event}
      (hplan : classifyUid (preflightSize sizes uid) perMsgCap = .fetch)
      (hrest : Fetched sizes perMsgCap rest outcomes events) :
      Fetched sizes perMsgCap (uid :: rest) (⟨uid, .ok body⟩ :: outcomes)
        (.body uid limit (.ok body) :: events)

/-- The answers about sizes. -/
def Event.listed : Event → Option (Except RimapError (Sizes × Option Nat))
  | .sizes answer => some answer
  | .body _ _ _ | .write _ _ _ => none

/-- The files that were to be written. -/
def Event.written : Event → Option (String × Bytes × Except RimapError String)
  | .write filename data answer => some (filename, data, answer)
  | .sizes _ | .body _ _ _ => none

/-- The bodies that the server gave or refused. -/
def Event.fetched : Event → Option (Nat × Except RimapError Bytes)
  | .body uid _ answer => some (uid, answer)
  | .sizes _ | .write _ _ _ => none

theorem fetchBodies_cases (env : Env σ δ) (folder : String) (sizes : Sizes) (limits : FetchLimits)
    (uids : List Nat) (running : Nat) {w w' : World σ} {r : Except RimapError (List FetchOutcome)}
    (h : fetchBodies env folder sizes limits uids running w = (r, w')) :
    ∃ events, w'.log = w.log ++ events ∧ events.filterMap Event.written = [] ∧
      ∀ outcomes, r = .ok outcomes → Fetched sizes limits.perMsgCap uids outcomes events := by
  induction uids generalizing running w r with
  | nil =>
      cases h
      refine ⟨[], (List.append_nil _).symm, rfl, ?_⟩
      intro outcomes hok
      cases hok
      exact .nil
  | cons uid rest ih =>
      unfold fetchBodies at h
      rcases hplan : classifyUid (preflightSize sizes uid) limits.perMsgCap with reason | _
      · rw [hplan] at h
        rcases Run.bind_cases h with ⟨outcomes, w₁, hrest, hpure⟩ | ⟨e, hrest, rfl⟩
        · cases hpure
          obtain ⟨events, hlog, hwritten, hfetched⟩ := ih running hrest
          refine ⟨events, hlog, hwritten, ?_⟩
          intro _ hok
          cases hok
          exact .skip hplan (hfetched outcomes rfl)
        · obtain ⟨events, hlog, hwritten, -⟩ := ih running hrest
          exact ⟨events, hlog, hwritten, fun _ hok => by cases hok⟩
      · rw [hplan] at h
        rcases Run.bind_cases h with ⟨body, w₁, hask, hnext⟩ | ⟨e, hask, rfl⟩
        · have hbody := Run.ask_cases hask
          split at hnext
          · cases hnext
            exact ⟨_, hbody, rfl, fun _ hok => by cases hok⟩
          · rcases Run.bind_cases hnext with ⟨outcomes, w₂, hrest, hpure⟩ | ⟨e, hrest, rfl⟩
            · cases hpure
              obtain ⟨events, hlog, hwritten, hfetched⟩ := ih _ hrest
              rw [hbody, List.append_assoc] at hlog
              refine ⟨_, hlog, hwritten, ?_⟩
              intro _ hok
              cases hok
              exact .fetch hplan (hfetched outcomes rfl)
            · obtain ⟨events, hlog, hwritten, -⟩ := ih _ hrest
              rw [hbody, List.append_assoc] at hlog
              exact ⟨_, hlog, hwritten, fun _ hok => by cases hok⟩
        · exact ⟨_, Run.ask_cases hask, rfl, fun _ hok => by cases hok⟩

theorem fetchable_of_skip {sizes : Sizes} {perMsgCap uid : Nat} {reason : ExportFailReason}
    (h : classifyUid (preflightSize sizes uid) perMsgCap = .skip reason) :
    fetchable sizes perMsgCap uid = false := by
  rw [fetchable, h]
  rfl

theorem fetchable_of_fetch {sizes : Sizes} {perMsgCap uid : Nat}
    (h : classifyUid (preflightSize sizes uid) perMsgCap = .fetch) :
    fetchable sizes perMsgCap uid = true := by
  rw [fetchable, h]
  rfl

section Fetched

variable {sizes : Sizes} {perMsgCap : Nat} {uids : List Nat} {outcomes : List FetchOutcome}
  {events : List Event} (h : Fetched sizes perMsgCap uids outcomes events)

include h

theorem Fetched.succeeded : (outcomes.filterMap succeededOf).map ExportedUid.uid =
    uids.filter (fetchable sizes perMsgCap) := by
  induction h with
  | nil => rfl
  | skip hplan hrest ih =>
      rw [List.filter_cons_of_neg (by simp [fetchable_of_skip hplan]), ← ih]
      rfl
  | fetch hplan hrest ih =>
      rw [List.filter_cons_of_pos (fetchable_of_fetch hplan), ← ih]
      rfl

theorem Fetched.failed : (outcomes.filterMap failedOf).map FailedUid.uid =
    uids.filter fun uid => !fetchable sizes perMsgCap uid := by
  induction h with
  | nil => rfl
  | skip hplan hrest ih =>
      rw [List.filter_cons_of_pos (by simp [fetchable_of_skip hplan]), ← ih]
      rfl
  | fetch hplan hrest ih =>
      rw [List.filter_cons_of_neg (by simp [fetchable_of_fetch hplan]), ← ih]
      rfl

/-- The log has the bodies in the order of the report, with the lengths that it gives. -/
theorem Fetched.bodies : events.filterMap Event.fetched =
      ((outcomes.filterMap succeededOf).map ExportedUid.uid).zip
        ((outcomes.filterMap bodyOf).map .ok) ∧
    (outcomes.filterMap succeededOf).map ExportedUid.sizeBytes =
      (outcomes.filterMap bodyOf).map List.length := by
  induction h with
  | nil => exact ⟨rfl, rfl⟩
  | skip hplan hrest ih => exact ih
  | fetch hplan hrest ih => exact ⟨congrArg (_ :: ·) ih.1, congrArg (_ :: ·) ih.2⟩

theorem Fetched.listed : events.filterMap Event.listed = [] := by
  induction h with
  | nil => rfl
  | skip hplan hrest ih => exact ih
  | fetch hplan hrest ih => exact ih

/-- A body that was refused is not among those of a finished fetch. -/
theorem Fetched.not_refused {uid : Nat} {e : RimapError} :
    (uid, .error e) ∉ events.filterMap Event.fetched := by
  induction h with
  | nil => exact List.not_mem_nil
  | skip hplan hrest ih => exact ih
  | fetch hplan hrest ih =>
      intro hmem
      rcases List.mem_cons.mp hmem with hfirst | hmem
      · cases hfirst
      · exact ih hmem

end Fetched

/-! ## The whole export -/

theorem preflightSizes_cases {env : Env σ δ} {folder : String} {uids : List Nat}
    {limits : FetchLimits} {w w' : World σ} {r : Except RimapError Sizes}
    (h : preflightSizes env folder uids limits w = (r, w')) :
    ∃ answer, w'.log = w.log ++ [.sizes answer] ∧
      ∀ sizes, r = .ok sizes → ∃ validity, answer = .ok (sizes, some validity) := by
  rcases Run.bind_cases h with ⟨⟨sizes, validity⟩, w₁, hask, hnext⟩ | ⟨e, hask, rfl⟩
  · have hlog := Run.ask_cases hask
    dsimp only at hnext
    rcases validity with _ | validity
    · cases hnext
      exact ⟨_, hlog, fun _ hok => by cases hok⟩
    · rw [if_neg (by simp)] at hnext
      split at hnext
      · cases hnext
        exact ⟨_, hlog, fun _ hok => by cases hok⟩
      · cases hnext
        refine ⟨_, hlog, ?_⟩
        intro _ hok
        cases hok
        exact ⟨validity, rfl⟩
  · exact ⟨_, Run.ask_cases hask, fun _ hok => by cases hok⟩

theorem planOutcome_cases (outcomes : List FetchOutcome) (allowPartial : Bool) :
    (∃ failed, planOutcome outcomes allowPartial = .abort failed) ∨
    (planOutcome outcomes allowPartial =
        .proceed (outcomes.filterMap failedOf).isEmpty (outcomes.filterMap bodyOf)
          (outcomes.filterMap succeededOf) (outcomes.filterMap failedOf) ∧
      (allowPartial = true ∨ outcomes.filterMap failedOf = [])) := by
  unfold planOutcome
  dsimp only
  split
  · exact .inl ⟨_, rfl⟩
  · rename_i hproceed
    refine .inr ⟨rfl, ?_⟩
    by_cases hfailed : outcomes.filterMap failedOf = []
    · exact .inr hfailed
    · exact .inl (by simpa [hfailed] using hproceed)

/-- An export is refused with nothing written, or comes to its last step. -/
theorem runExport_cases {env : Env σ δ} {plan : RunPlan δ} {w w' : World σ}
    {r : Except RimapError ExportMessagesMeta} (h : runExport env plan w = (r, w')) :
    (∃ e events, r = .error e ∧ w'.log = w.log ++ events ∧
      events.filterMap Event.written = []) ∨
    ∃ sizes validity outcomes events w₁,
      Fetched sizes plan.perMsgCap plan.uids outcomes events ∧
      events.filterMap Event.written = [] ∧
      w₁.log = w.log ++ .sizes (.ok (sizes, some validity)) :: events ∧
      (plan.allowPartial = true ∨ outcomes.filterMap failedOf = []) ∧
      writeExport env plan (outcomes.filterMap failedOf).isEmpty (outcomes.filterMap bodyOf)
        (outcomes.filterMap succeededOf) (outcomes.filterMap failedOf) w₁ = (r, w') := by
  unfold runExport at h
  rcases Run.bind_cases h with ⟨sizes, w₁, hpreflight, hnext⟩ | ⟨e, hpreflight, rfl⟩
  · obtain ⟨answer, hlog, hanswer⟩ := preflightSizes_cases hpreflight
    obtain ⟨validity, rfl⟩ := hanswer sizes rfl
    dsimp only at hnext
    split at hnext
    · cases hnext
      exact .inl ⟨_, _, rfl, hlog, rfl⟩
    · rcases Run.bind_cases hnext with ⟨outcomes, w₂, hbodies, hplan⟩ | ⟨e, hbodies, rfl⟩
      · obtain ⟨events, hevents, hwritten, hfetched⟩ := fetchBodies_cases _ _ _ _ _ _ hbodies
        rw [hlog, List.append_assoc] at hevents
        rcases planOutcome_cases outcomes plan.allowPartial with
          ⟨failed, habort⟩ | ⟨hproceed, hallowed⟩
        · rw [habort] at hplan
          cases hplan
          exact .inl ⟨_, _, rfl, hevents, hwritten⟩
        · rw [hproceed] at hplan
          exact .inr ⟨sizes, validity, outcomes, events, w₂, hfetched outcomes rfl, hwritten,
            hevents, hallowed, hplan⟩
      · obtain ⟨events, hevents, hwritten, -⟩ := fetchBodies_cases _ _ _ _ _ _ hbodies
        rw [hlog, List.append_assoc] at hevents
        exact .inl ⟨e, _, rfl, hevents, hwritten⟩
  · obtain ⟨answer, hlog, -⟩ := preflightSizes_cases hpreflight
    exact .inl ⟨e, _, rfl, hlog, rfl⟩

/-- A report of the last step, which wrote no file or one: `last` is what it asked. -/
def Reported (env : Env σ δ) (plan : RunPlan δ) (complete : Bool) (bodies : List Bytes)
    (succeeded : List ExportedUid) (failed : List FailedUid) (last : List Event)
    (report : ExportMessagesMeta) : Prop :=
  (Mbox.buildMbox bodies).length ≤ plan.budget ∧
    ((succeeded = [] ∧ last = [] ∧
      report = exportReport env plan complete (Mbox.buildMbox bodies) succeeded failed none) ∨
    (succeeded ≠ [] ∧ ∃ filename path,
      last = [.write filename (Mbox.buildMbox bodies) (.ok path)] ∧
      report = exportReport env plan complete (Mbox.buildMbox bodies) succeeded failed
        (some path)))

/-- The last step: an error, a report without a file, or one file. -/
theorem writeExport_cases {env : Env σ δ} {plan : RunPlan δ} {complete : Bool}
    {bodies : List Bytes} {succeeded : List ExportedUid} {failed : List FailedUid}
    {w w' : World σ} {r : Except RimapError ExportMessagesMeta}
    (h : writeExport env plan complete bodies succeeded failed w = (r, w')) :
    ∃ events, w'.log = w.log ++ events ∧ events.filterMap Event.listed = [] ∧
      events.filterMap Event.fetched = [] ∧
      ∀ report, r = .ok report →
        Reported env plan complete bodies succeeded failed events report := by
  unfold writeExport at h
  dsimp only at h
  split at h
  · cases h
    exact ⟨[], (List.append_nil _).symm, rfl, rfl, fun _ hok => by cases hok⟩
  · rename_i hbudget
    have hbudget := Nat.not_lt.mp hbudget
    split at h
    · rename_i hempty
      cases h
      refine ⟨[], (List.append_nil _).symm, rfl, rfl, ?_⟩
      intro _ hok
      cases hok
      exact ⟨hbudget, .inl ⟨by simpa using hempty, rfl, rfl⟩⟩
    · rename_i hempty
      have hempty : succeeded ≠ [] := by simpa using hempty
      rcases Run.bind_cases h with ⟨token, w₁, htoken, hnext⟩ | ⟨e, htoken, rfl⟩
      · have htoken := Run.ask_cases htoken
        rw [List.append_nil] at htoken
        rcases Run.bind_cases hnext with ⟨path, w₂, hwrite, hpure⟩ | ⟨e, hwrite, rfl⟩
        · have hlog := Run.ask_cases hwrite
          rw [htoken] at hlog
          cases hpure
          refine ⟨_, hlog, rfl, rfl, ?_⟩
          intro _ hok
          cases hok
          exact ⟨hbudget, .inr ⟨hempty, _, path, rfl, rfl⟩⟩
        · have hlog := Run.ask_cases hwrite
          rw [htoken] at hlog
          exact ⟨_, hlog, rfl, rfl, fun _ hok => by cases hok⟩
      · cases htoken

/-- The uids that are asked for, each once. -/
def requested (input : ExportMessagesInput) : List Nat := (input.uids.map Subtype.val).eraseDups

/-- What a report says about the answers of the server and of the sandbox: `sizes` is the
    answer about the sizes, `bodies` are the bodies that were fetched. -/
structure Accounted (env : Env σ δ) (input : ExportMessagesInput) (sizes : Sizes)
    (bodies : List Bytes) (log : List Event) (report : ExportMessagesMeta) : Prop where
  listed : ∃ validity, log.filterMap Event.listed = [.ok (sizes, some validity)]
  succeeded : report.succeeded.map ExportedUid.uid =
    (requested input).filter (fetchable sizes env.maxFetchBodyBytes)
  failed : report.failed.map FailedUid.uid =
    (requested input).filter fun uid => !fetchable sizes env.maxFetchBodyBytes uid
  complete : report.complete = report.failed.isEmpty
  messageCount : report.messageCount = report.succeeded.length
  fetched : log.filterMap Event.fetched =
    (report.succeeded.map ExportedUid.uid).zip (bodies.map .ok)
  sizeBytes : report.succeeded.map ExportedUid.sizeBytes = bodies.map List.length
  totalBytes : report.totalBytes = (Mbox.buildMbox bodies).length
  budget : report.totalBytes ≤ clampTotalBytes input.maxTotalBytes
  sha256 : report.sha256 = env.sha256Hex (Mbox.buildMbox bodies)
  nothing : report.succeeded = [] →
    log.filterMap Event.written = [] ∧ report.path = none ∧ report.partialPath = none
  file : report.succeeded ≠ [] → ∃ filename path,
    log.filterMap Event.written = [(filename, Mbox.buildMbox bodies, .ok path)] ∧
      report.path = (if report.complete then some path else none) ∧
      report.partialPath = if report.complete then none else some path
  readBack : Mbox.splitAndUnescape (Mbox.buildMbox bodies) = bodies.map Mbox.terminated

/-- An export is refused with nothing written, or comes to its last step. -/
theorem exportMessages_cases {env : Env σ δ} {input : ExportMessagesInput} {w w' : World σ}
    {r : Except RimapError ExportMessagesMeta} (h : exportMessages env input w = (r, w')) :
    (∃ e events, r = .error e ∧ w'.log = w.log ++ events ∧
      events.filterMap Event.written = []) ∨
    ∃ (plan : RunPlan δ) (w₁ : World σ), plan.uids = requested input ∧
      plan.budget = clampTotalBytes input.maxTotalBytes ∧
      plan.perMsgCap = env.maxFetchBodyBytes ∧
      plan.allowPartial = input.allowPartial.getD false ∧ w₁.log = w.log ∧
      runExport env plan w₁ = (r, w') := by
  have hnothing {e : RimapError} (hlog : w'.log = w.log) (hr : r = .error e) :
      ∃ e events, r = .error e ∧ w'.log = w.log ++ events ∧
        events.filterMap Event.written = [] :=
    ⟨e, [], hr, by rw [hlog, List.append_nil], rfl⟩
  unfold exportMessages at h
  rcases Run.bind_cases h with ⟨_, w₁, hfolder, hafterFolder⟩ | ⟨e, hfolder, hr⟩
  · obtain rfl := (Run.lift_cases hfolder).2
    rcases Run.bind_cases hafterFolder with ⟨filenamePrefix, w₂, hname, hafterName⟩ |
      ⟨e, hname, hr⟩
    · obtain rfl := (Run.lift_cases hname).2
      rcases Run.bind_cases hafterName with ⟨uids, w₃, huids, hafterUids⟩ | ⟨e, huids, hr⟩
      · obtain ⟨hvalid, rfl⟩ := Run.lift_cases huids
        rcases Run.bind_cases hafterUids with ⟨dest, w₄, hdest, hexport⟩ | ⟨e, hdest, hr⟩
        · have hlog := Run.ask_cases hdest
          rw [List.append_nil] at hlog
          exact .inr ⟨_, w₄, validateUids_ok hvalid, rfl, rfl, rfl, hlog, hexport⟩
        · have hlog := Run.ask_cases hdest
          rw [List.append_nil] at hlog
          exact .inl (hnothing hlog hr)
      · exact .inl (hnothing (by rw [(Run.lift_cases huids).2]) hr)
    · exact .inl (hnothing (by rw [(Run.lift_cases hname).2]) hr)
  · exact .inl (hnothing (by rw [(Run.lift_cases hfolder).2]) hr)

/-- What the log holds when the last step is over, which asked `last`. -/
structure LastStep (env : Env σ δ) (input : ExportMessagesInput) (sizes : Sizes)
    (outcomes : List FetchOutcome) (last : List Event) (log : List Event) : Prop where
  listed : ∃ validity, log.filterMap Event.listed = [.ok (sizes, some validity)]
  fetched : ∃ events, Fetched sizes env.maxFetchBodyBytes (requested input) outcomes events ∧
    log.filterMap Event.fetched = events.filterMap Event.fetched
  written : log.filterMap Event.written = last.filterMap Event.written
  allowed : input.allowPartial.getD false = true ∨ outcomes.filterMap failedOf = []

/-- An export from an empty log is refused with nothing written, or ends with its last
    step. -/
theorem exportMessages_end {env : Env σ δ} {input : ExportMessagesInput} {s : σ} {w : World σ}
    {r : Except RimapError ExportMessagesMeta} (h : exportMessages env input ⟨s, []⟩ = (r, w)) :
    (∃ e, r = .error e ∧ w.log.filterMap Event.written = []) ∨
    ∃ (plan : RunPlan δ) (sizes : Sizes) (outcomes : List FetchOutcome) (last : List Event),
      plan.budget = clampTotalBytes input.maxTotalBytes ∧
      LastStep env input sizes outcomes last w.log ∧
      ∀ report, r = .ok report → Reported env plan (outcomes.filterMap failedOf).isEmpty
        (outcomes.filterMap bodyOf) (outcomes.filterMap succeededOf)
        (outcomes.filterMap failedOf) last report := by
  rcases exportMessages_cases h with ⟨e, events, hr, hlog, hwritten⟩ |
    ⟨plan, w₁, huids, hbudget, hcap, hallow, hlog₁, hexport⟩
  · exact .inl ⟨e, hr, by rw [hlog]; exact hwritten⟩
  · rcases runExport_cases hexport with ⟨e, events, hr, hlog, hwritten⟩ |
      ⟨sizes, validity, outcomes, events, w₂, hfetched, hwritten, hlog, hallowed, hwrite⟩
    · rw [hlog₁] at hlog
      exact .inl ⟨e, hr, by rw [hlog]; exact hwritten⟩
    · obtain ⟨last, hlast, hlisted', hfetched', hreport⟩ := writeExport_cases hwrite
      rw [hlog, hlog₁, List.nil_append] at hlast
      rw [huids, hcap] at hfetched
      rw [hallow] at hallowed
      refine .inr ⟨plan, sizes, outcomes, last, hbudget, ?_, hreport⟩
      rw [hlast]
      refine ⟨⟨validity, ?_⟩, ⟨events, hfetched, ?_⟩, ?_, hallowed⟩
      · change .ok (sizes, some validity) :: (events ++ last).filterMap Event.listed = _
        rw [List.filterMap_append, hfetched.listed, hlisted', List.append_nil]
      · change (events ++ last).filterMap Event.fetched = _
        rw [List.filterMap_append, hfetched', List.append_nil]
      · change (events ++ last).filterMap Event.written = _
        rw [List.filterMap_append, hwritten, List.nil_append]

theorem LastStep.accounted {env : Env σ δ} {input : ExportMessagesInput} {plan : RunPlan δ}
    {sizes : Sizes} {outcomes : List FetchOutcome} {last log : List Event}
    {report : ExportMessagesMeta} (h : LastStep env input sizes outcomes last log)
    (hbudget : plan.budget = clampTotalBytes input.maxTotalBytes)
    (hreport : Reported env plan (outcomes.filterMap failedOf).isEmpty
      (outcomes.filterMap bodyOf) (outcomes.filterMap succeededOf)
      (outcomes.filterMap failedOf) last report) :
    Accounted env input sizes (outcomes.filterMap bodyOf) log report := by
  obtain ⟨events, hfetched, hbodies⟩ := h.fetched
  obtain ⟨hlength, hfile⟩ := hreport
  rw [hbudget] at hlength
  obtain ⟨written, rfl⟩ : ∃ written, report = exportReport env plan
      (outcomes.filterMap failedOf).isEmpty (Mbox.buildMbox (outcomes.filterMap bodyOf))
      (outcomes.filterMap succeededOf) (outcomes.filterMap failedOf) written := by
    rcases hfile with ⟨-, -, hshape⟩ | ⟨-, filename, path, -, hshape⟩
    · exact ⟨none, hshape⟩
    · exact ⟨some path, hshape⟩
  refine ⟨h.listed, hfetched.succeeded, hfetched.failed, rfl, rfl,
    hbodies.trans hfetched.bodies.1, hfetched.bodies.2, rfl, hlength, rfl, ?_, ?_,
    Mbox.splitAndUnescape_buildMbox _⟩
  · intro hnone
    rcases hfile with ⟨-, rfl, hshape⟩ | ⟨hsome, -⟩
    · rw [hshape]
      exact ⟨h.written, ite_self _, ite_self _⟩
    · exact absurd hnone hsome
  · intro hsome
    rcases hfile with ⟨hnone, -⟩ | ⟨-, filename, path, rfl, hshape⟩
    · exact absurd hnone hsome
    · rw [hshape]
      exact ⟨filename, path, h.written, rfl, rfl⟩

/-- With partial results refused the last step is reached with every uid. -/
theorem LastStep.fetchable_of_not_partial {env : Env σ δ} {input : ExportMessagesInput}
    {sizes : Sizes} {outcomes : List FetchOutcome} {last log : List Event}
    (h : LastStep env input sizes outcomes last log)
    (hstrict : input.allowPartial.getD false = false) {uid : Nat} (huid : uid ∈ requested input) :
    fetchable sizes env.maxFetchBodyBytes uid = true := by
  obtain ⟨events, hfetched, -⟩ := h.fetched
  have hallowed := h.allowed
  rw [hstrict] at hallowed
  by_contra hfails
  have hfailed : uid ∈ (requested input).filter
      fun uid => !fetchable sizes env.maxFetchBodyBytes uid :=
    List.mem_filter.mpr ⟨huid, by simpa using hfails⟩
  rw [← hfetched.failed, hallowed.resolve_left Bool.false_ne_true] at hfailed
  cases hfailed

/-- **The accounting of an export.**  A report accounts for every uid that was asked for
    and for every byte of the file.  Nothing is written when a uid cannot be exported
    and partial results are not allowed, or when a body is refused. -/
theorem exportMessages_accounted (env : Env σ δ) (input : ExportMessagesInput) (s : σ) :
    (∀ report, (exportMessages env input ⟨s, []⟩).1 = .ok report → ∃ sizes bodies,
      Accounted env input sizes bodies (exportMessages env input ⟨s, []⟩).2.log report) ∧
    (input.allowPartial.getD false = false → ∀ sizes validity,
      .ok (sizes, validity) ∈ (exportMessages env input ⟨s, []⟩).2.log.filterMap Event.listed →
      (∃ uid ∈ requested input, fetchable sizes env.maxFetchBodyBytes uid = false) →
      (exportMessages env input ⟨s, []⟩).2.log.filterMap Event.written = []) ∧
    ∀ uid e, (uid, .error e) ∈
        (exportMessages env input ⟨s, []⟩).2.log.filterMap Event.fetched →
      (exportMessages env input ⟨s, []⟩).2.log.filterMap Event.written = [] := by
  rcases hrun : exportMessages env input ⟨s, []⟩ with ⟨r, w⟩
  dsimp only
  rcases exportMessages_end hrun with ⟨e, hr, hwritten⟩ |
    ⟨plan, sizes, outcomes, last, hbudget, hlast, hreport⟩
  · refine ⟨?_, fun _ _ _ _ _ => hwritten, fun _ _ _ => hwritten⟩
    intro report hok
    rw [hr] at hok
    cases hok
  · refine ⟨?_, ?_, ?_⟩
    · intro report hok
      exact ⟨sizes, _, hlast.accounted hbudget (hreport report hok)⟩
    · rintro hstrict sizes' validity' hmem ⟨uid, huid, hfails⟩
      obtain ⟨validity, hlisted⟩ := hlast.listed
      rw [hlisted, List.mem_singleton] at hmem
      cases hmem
      rw [hlast.fetchable_of_not_partial hstrict huid] at hfails
      cases hfails
    · intro uid e hmem
      obtain ⟨events, hfetched, hbodies⟩ := hlast.fetched
      rw [hbodies] at hmem
      exact absurd hmem hfetched.not_refused

end RustyImap.Export
