import RustyImap.ContentParse
import RustyImap.RunningTotal

/-!
# The budgets of the body stage (`rimap-content/src/parse/bodies.rs`)

`extract_bodies` has two caps.  A part is cut to `MAX_BODY_BYTES` by the Unicode
pipeline, and the walk stops at the first part after which the sum of all texts
has reached `MAX_TOTAL_BODY_BYTES`.

Neither is what bounds the result: the last part is added as a whole, and the
flag for a cut part looks at the bytes of the part, not at the text that was cut.
-/

namespace RustyImap.ContentParse

open RustyImap.ImapOps RustyImap.UnicodeFilter RustyImap.HtmlBody

/-! ## The aggregate cap -/

/-- The bytes of `body_text` and of all `alternate_parts`. -/
def BodyWalkState.bytes (state : BodyWalkState) : Nat :=
  utf8Len (state.primaryText.getD "") + (state.alternates.map utf8Len).sum

/-- The length of the text that the HTML part comes to, where it is not too long. -/
def htmlSize (libs : ContentLibs) (part : Part) (s : String) : Option Nat :=
  match sanitizeHtml libs.toHtmlLibs (utf8Bytes s) (partCharset part) with
  | .ok result => some (utf8Len result.bodyText)
  | .error _ => none

/-- The length of the text that an entry of `text_body` comes to. -/
def entrySize (libs : ContentLibs) (message : Message) (entry : Nat × Nat) : Option Nat :=
  message.parts[entry.1]?.bind fun part =>
    match part.body with
    | .text s =>
        some (utf8Len (sanitize libs.toUnicodeLibs (utf8Bytes s) (partCharset part)
          MAX_BODY_BYTES ("body:text[" ++ toString entry.2 ++ "]")).1)
    | .html s => if message.htmlBody.head? = some entry.1 then htmlSize libs part s else none
    | .message | .binary _ | .inlineBinary _ | .multipart _ => none

/-- An entry after which no HTML alternative is added: a part that is flagged, or
    the HTML part itself. -/
def blocksAlternative (message : Message) (entry : Nat × Nat) : Bool :=
  message.parts[entry.1]?.any fun part =>
    match part.body with
    | .text s => decide (MAX_BODY_BYTES < (utf8Bytes s).length)
    | .html _ => decide (message.htmlBody.head? = some entry.1)
    | .message | .binary _ | .inlineBinary _ | .multipart _ => false

/-- The length of the text of the HTML alternative, if there is one. -/
def alternativeSize (libs : ContentLibs) (message : Message) : Option Nat :=
  if message.textBody.zipIdx.any (blocksAlternative message) then none
  else
    (message.htmlBody.head?.bind fun partId => message.parts[partId]?).bind fun part =>
      match part.body with
      | .html s => htmlSize libs part s
      | .text _ | .message | .binary _ | .inlineBinary _ | .multipart _ => none

/-- The lengths of the texts that a message has to offer, in the order in which they
    are collected. -/
def bodySizes (libs : ContentLibs) (message : Message) : List Nat :=
  message.textBody.zipIdx.filterMap (entrySize libs message) ++
    (alternativeSize libs message).toList

/-! ### One part -/

/-- No HTML alternative is added after this. -/
def BodyWalkState.blocked (state : BodyWalkState) : Bool :=
  state.bodyHtml.isSome || state.bodyTruncated

variable {libs : ContentLibs} {message : Message}

theorem bytes_addText (state : BodyWalkState) (text : String) (warnings : List SecurityWarning) :
    (state.addText text warnings).bytes = state.bytes + utf8Len text := by
  have hempty : utf8Len "" = 0 := rfl
  rcases hprimary : state.primaryText with _ | primary
  · simp [BodyWalkState.bytes, BodyWalkState.addText, hprimary, hempty, Nat.add_comm]
  · simp [BodyWalkState.bytes, BodyWalkState.addText, hprimary, Nat.add_assoc]

/-- What handling a part that comes to `size` bytes does to the state. -/
structure Visited (state visited : BodyWalkState) (size : Option Nat) (blocks : Bool) : Prop where
  total : visited.totalBytes = state.totalBytes + size.getD 0
  bytes : visited.bytes = state.bytes + size.getD 0
  blocked : visited.blocked = (state.blocked || blocks)

theorem visited_addText (state : BodyWalkState) (truncated : Bool) (text : String)
    (warnings : List SecurityWarning) (h : state.bodyTruncated = true → truncated = true) :
    Visited state ({ state with bodyTruncated := truncated }.addText text warnings)
      (some (utf8Len text)) truncated where
  total := rfl
  bytes := bytes_addText _ text warnings
  blocked := by
    rcases hold : state.bodyTruncated with _ | _
    · simp [BodyWalkState.blocked, BodyWalkState.addText, hold]
    · simp [BodyWalkState.blocked, BodyWalkState.addText, h hold]

theorem visited_decodeTextPart (part : Part) (rawBytes : Bytes) (idx : Nat)
    (state : BodyWalkState) :
    Visited state (decodeTextPart libs part rawBytes idx state)
      (some (utf8Len (sanitize libs.toUnicodeLibs rawBytes (partCharset part) MAX_BODY_BYTES
        ("body:text[" ++ toString idx ++ "]")).1))
      (decide (MAX_BODY_BYTES < rawBytes.length)) := by
  unfold decodeTextPart
  dsimp only
  generalize sanitize libs.toUnicodeLibs rawBytes (partCharset part) MAX_BODY_BYTES
    ("body:text[" ++ toString idx ++ "]") = sanitized
  split
  · rename_i hlong
    rw [decide_eq_true hlong]
    exact visited_addText state true sanitized.1 _ fun _ => rfl
  · rename_i hlong
    rw [decide_eq_false hlong]
    have hsame := visited_addText state state.bodyTruncated sanitized.1 sanitized.2 id
    refine ⟨hsame.total, hsame.bytes, ?_⟩
    rw [Bool.or_false]
    rfl

theorem visited_sanitizeHtmlPart {part : Part} {s : String} {state visited : BodyWalkState}
    (h : sanitizeHtmlPart libs part (utf8Bytes s) state = .ok visited) :
    Visited state visited (htmlSize libs part s) true := by
  unfold sanitizeHtmlPart at h
  unfold htmlSize
  rcases hhtml : sanitizeHtml libs.toHtmlLibs (utf8Bytes s) (partCharset part) with err | result
  · rw [hhtml] at h
    cases err with
    | limitExceeded kind limit =>
        cases h
        exact ⟨rfl, rfl, by simp [BodyWalkState.blocked]⟩
    | malformed reason => cases h
    | parserPanic => cases h
  · rw [hhtml] at h
    cases h
    exact ⟨rfl, bytes_addText state result.bodyText result.warnings,
      by simp [BodyWalkState.blocked]⟩

/-- A part is handled: a text, or the HTML part. -/
inductive Handled (libs : ContentLibs) (message : Message) (primaryHtml : Option Nat)
    (entry : Nat × Nat) (state visited : BodyWalkState) : Prop where
  | text {part : Part} {s : String} (hpart : message.parts[entry.1]? = some part)
      (hbody : part.body = .text s)
      (hvisited : decodeTextPart libs part (utf8Bytes s) entry.2 state = visited)
  | html {part : Part} {s : String} (hpart : message.parts[entry.1]? = some part)
      (hbody : part.body = .html s) (hprimary : primaryHtml = some entry.1)
      (hvisited : sanitizeHtmlPart libs part (utf8Bytes s) state = .ok visited)

/-- The walk stops here. -/
def BodyWalkState.stopped (state : BodyWalkState) : BodyWalkState :=
  { state with
    bodyTruncated := true
    warnings := state.warnings ++ [warningAt .parseBodyTruncated
      ("total=" ++ toString state.totalBytes ++ " limit=" ++ toString MAX_TOTAL_BODY_BYTES)
      "body:aggregate"] }

/-- One turn of the loop: the entry is passed over, or its part is handled and the
    total decides whether the loop goes on. -/
theorem walkTextBody_cons {primaryHtml : Option Nat} {entry : Nat × Nat}
    {rest : List (Nat × Nat)} {state state' : BodyWalkState}
    (h : walkTextBody libs message primaryHtml (entry :: rest) state = .ok state') :
    ((∀ part, message.parts[entry.1]? = some part → (∀ s, part.body ≠ .text s) ∧
        ∀ s, part.body = .html s → primaryHtml ≠ some entry.1) ∧
      walkTextBody libs message primaryHtml rest state = .ok state') ∨
    ∃ visited, Handled libs message primaryHtml entry state visited ∧
      ((MAX_TOTAL_BODY_BYTES ≤ visited.totalBytes ∧ state' = visited.stopped) ∨
        (visited.totalBytes < MAX_TOTAL_BODY_BYTES ∧
          walkTextBody libs message primaryHtml rest visited = .ok state')) := by
  obtain ⟨partId, idx⟩ := entry
  have hbudget {visited : BodyWalkState}
      (hok : (if MAX_TOTAL_BODY_BYTES ≤ visited.totalBytes then Except.ok visited.stopped
        else walkTextBody libs message primaryHtml rest visited) = .ok state') :
      (MAX_TOTAL_BODY_BYTES ≤ visited.totalBytes ∧ state' = visited.stopped) ∨
        (visited.totalBytes < MAX_TOTAL_BODY_BYTES ∧
          walkTextBody libs message primaryHtml rest visited = .ok state') := by
    split at hok
    · rename_i hfull
      exact .inl ⟨hfull, (Except.ok.inj hok).symm⟩
    · rename_i hfull
      exact .inr ⟨Nat.not_le.mp hfull, hok⟩
  unfold walkTextBody at h
  split at h
  · rename_i hpart
    refine .inl ⟨?_, h⟩
    intro part hsome
    rw [hpart] at hsome
    cases hsome
  · rename_i part hpart
    rcases hbody : part.body with s | s | bytes | bytes | _ | children
    · rw [hbody] at h
      exact .inr ⟨_, .text hpart hbody rfl, hbudget h⟩
    · rw [hbody] at h
      dsimp only at h
      split at h
      · rename_i hprimary
        rcases hhtml : sanitizeHtmlPart libs part (utf8Bytes s) state with err | visited
        · rw [hhtml] at h
          cases h
        · rw [hhtml] at h
          exact .inr ⟨visited, .html hpart hbody hprimary hhtml, hbudget h⟩
      · rename_i hprimary
        refine .inl ⟨?_, h⟩
        intro part' hsome
        rw [hpart] at hsome
        cases hsome
        exact ⟨fun s' => by simp [hbody], fun _ _ => hprimary⟩
    all_goals
      rw [hbody] at h
      refine .inl ⟨?_, h⟩
      intro part' hsome
      rw [hpart] at hsome
      cases hsome
      exact ⟨fun s' => by simp [hbody], fun s' => by simp [hbody]⟩

theorem Handled.visited {entry : Nat × Nat} {state visited : BodyWalkState}
    (h : Handled libs message message.htmlBody.head? entry state visited) :
    Visited state visited (entrySize libs message entry) (blocksAlternative message entry) := by
  cases h with
  | text hpart hbody hvisited =>
      rename_i part s
      have hstep := @visited_decodeTextPart libs part (utf8Bytes s) entry.2 state
      rw [hvisited] at hstep
      simpa [entrySize, blocksAlternative, hpart, hbody] using hstep
  | html hpart hbody hprimary hvisited =>
      have hstep := visited_sanitizeHtmlPart hvisited
      simpa [entrySize, blocksAlternative, hpart, hbody, hprimary] using hstep

/-- An entry that is passed over has no text to offer. -/
theorem entrySize_of_passed {entry : Nat × Nat}
    (h : ∀ part, message.parts[entry.1]? = some part → (∀ s, part.body ≠ .text s) ∧
      ∀ s, part.body = .html s → message.htmlBody.head? ≠ some entry.1) :
    entrySize libs message entry = none ∧ blocksAlternative message entry = false := by
  rcases hpart : message.parts[entry.1]? with _ | part
  · simp [entrySize, blocksAlternative, hpart]
  · obtain ⟨htext, hhtml⟩ := h part hpart
    rcases hbody : part.body with s | s | bytes | bytes | _ | children
    · exact absurd hbody (htext s)
    · simp [entrySize, blocksAlternative, hpart, hbody, hhtml s hbody]
    all_goals simp [entrySize, blocksAlternative, hpart, hbody]

/-! ### The whole stage -/

/-- What the walk over some entries does to the state. -/
structure Walked (libs : ContentLibs) (message : Message) (todo : List (Nat × Nat))
    (state state' : BodyWalkState) : Prop where
  total : state'.totalBytes = RunningTotal.total MAX_TOTAL_BODY_BYTES state.totalBytes
    (todo.filterMap (entrySize libs message))
  bytes : state.bytes = state.totalBytes → state'.bytes = state'.totalBytes
  blocked : state'.totalBytes < MAX_TOTAL_BODY_BYTES →
    state'.blocked = (state.blocked || todo.any (blocksAlternative message))

theorem walked_walkTextBody (todo : List (Nat × Nat)) {state state' : BodyWalkState}
    (hbelow : state.totalBytes < MAX_TOTAL_BODY_BYTES)
    (h : walkTextBody libs message message.htmlBody.head? todo state = .ok state') :
    Walked libs message todo state state' := by
  induction todo generalizing state with
  | nil =>
      cases h
      exact ⟨rfl, id, fun _ => by simp⟩
  | cons entry rest ih =>
      rcases walkTextBody_cons h with ⟨hpassed, hrest⟩ | ⟨visited, hhandled, hend⟩
      · have hwalked := ih hbelow hrest
        obtain ⟨hsize, hblocks⟩ := @entrySize_of_passed libs message entry hpassed
        refine ⟨?_, hwalked.bytes, fun hlt => ?_⟩
        · rw [List.filterMap_cons_none hsize]
          exact hwalked.total
        · rw [hwalked.blocked hlt, List.any_cons, hblocks, Bool.false_or]
      · have hvisited := hhandled.visited
        have hsizes : RunningTotal.total MAX_TOTAL_BODY_BYTES state.totalBytes
            ((entry :: rest).filterMap (entrySize libs message)) =
            if MAX_TOTAL_BODY_BYTES ≤ visited.totalBytes then visited.totalBytes
            else RunningTotal.total MAX_TOTAL_BODY_BYTES visited.totalBytes
              (rest.filterMap (entrySize libs message)) := by
          have htotal := hvisited.total
          rcases hsize : entrySize libs message entry with _ | size
          · rw [hsize] at htotal
            rw [List.filterMap_cons_none hsize, htotal, Option.getD_none, Nat.add_zero,
              if_neg (Nat.not_le.mpr hbelow)]
          · rw [hsize] at htotal
            rw [List.filterMap_cons_some hsize, htotal]
            rfl
        have hbytes : state.bytes = state.totalBytes → visited.bytes = visited.totalBytes := by
          intro heq
          rw [hvisited.bytes, hvisited.total, heq]
        rcases hend with ⟨hfull, rfl⟩ | ⟨hlt, hrest⟩
        · refine ⟨?_, hbytes, fun hless => absurd hfull (Nat.not_le.mpr hless)⟩
          rw [hsizes, if_pos hfull]
          rfl
        · have hwalked := ih hlt hrest
          refine ⟨?_, fun heq => hwalked.bytes (hbytes heq), fun hless => ?_⟩
          · rw [hsizes, if_neg (Nat.not_le.mpr hlt), hwalked.total]
          · rw [hwalked.blocked hless, hvisited.blocked, List.any_cons, Bool.or_assoc]

/-- The HTML alternative is added where the walk has left room for it. -/
theorem bytes_surfaceAlternativeHtml {walked bodies : BodyWalkState}
    (hbytes : walked.bytes = walked.totalBytes)
    (hblocked : walked.totalBytes < MAX_TOTAL_BODY_BYTES →
      walked.blocked = (false || message.textBody.zipIdx.any (blocksAlternative message)))
    (h : surfaceAlternativeHtml libs message message.htmlBody.head? walked = .ok bodies) :
    bodies.bytes =
      if MAX_TOTAL_BODY_BYTES ≤ walked.totalBytes then walked.totalBytes
      else RunningTotal.total MAX_TOTAL_BODY_BYTES walked.totalBytes
        (alternativeSize libs message).toList := by
  rw [Bool.false_or] at hblocked
  unfold surfaceAlternativeHtml at h
  by_cases hfull : MAX_TOTAL_BODY_BYTES ≤ walked.totalBytes
  · rw [if_pos (by simp [hfull])] at h
    cases h
    rw [if_pos hfull, hbytes]
  · have hlt : walked.totalBytes < MAX_TOTAL_BODY_BYTES := Nat.not_le.mp hfull
    -- what is added at most once is added as it stands
    have hsingle : ∀ n : Nat, RunningTotal.total MAX_TOTAL_BODY_BYTES walked.totalBytes [n] =
        walked.totalBytes + n := fun n => ite_self _
    rw [if_neg hfull]
    rcases hopen : walked.blocked with _ | _
    · rw [hopen] at hblocked
      have hopen : (walked.bodyHtml.isSome || walked.bodyTruncated) = false := hopen
      rw [if_neg (by simp [hopen, hfull])] at h
      unfold alternativeSize
      rw [if_neg (by simp [← hblocked hlt])]
      split at h
      · rename_i part hpart
        rw [hpart, Option.bind_some]
        split at h
        · rename_i s hbody
          have hvisited := visited_sanitizeHtmlPart h
          simp only [hbody]
          rcases hsize : htmlSize libs part s with _ | size
          · rw [hvisited.bytes, hsize, hbytes]
            rfl
          · rw [hvisited.bytes, hsize, hbytes, Option.toList_some, hsingle, Option.getD_some]
        · rename_i hbody
          cases h
          rcases hpartBody : part.body with s | s | bytes | bytes | _ | children
          · exact hbytes
          · exact absurd hpartBody (hbody s)
          all_goals exact hbytes
      · rename_i hpart
        cases h
        rw [hpart]
        exact hbytes
    · rw [hopen] at hblocked
      have hclosed : (walked.bodyHtml.isSome || walked.bodyTruncated) = true := hopen
      rw [if_pos (by simp [hclosed])] at h
      cases h
      unfold alternativeSize
      rw [if_pos (hblocked hlt).symm, hbytes]
      rfl

/-- The stage adds up the sizes on offer until the cap is reached. -/
theorem bytes_extractBodies {bodies : BodyWalkState}
    (h : extractBodies libs message = .ok bodies) :
    bodies.bytes = RunningTotal.total MAX_TOTAL_BODY_BYTES 0 (bodySizes libs message) := by
  have hstart : (0 : Nat) < MAX_TOTAL_BODY_BYTES := by decide
  unfold extractBodies at h
  split at h
  · cases h
  · split at h
    · cases h
    · rcases hwalk : walkTextBody libs message message.htmlBody.head? message.textBody.zipIdx {}
        with err | walked
      · simp only [hwalk] at h
        cases h
      · simp only [hwalk] at h
        change surfaceAlternativeHtml libs message message.htmlBody.head? walked = .ok bodies at h
        have hwalked := walked_walkTextBody _ hstart hwalk
        have htotal : walked.totalBytes = RunningTotal.total MAX_TOTAL_BODY_BYTES 0
            (message.textBody.zipIdx.filterMap (entrySize libs message)) := hwalked.total
        have hbytes : walked.bytes = walked.totalBytes := hwalked.bytes rfl
        rw [bodySizes, RunningTotal.total_append hstart, ← htotal]
        exact bytes_surfaceAlternativeHtml hbytes hwalked.blocked h

theorem utf8Len_sanitize_le (libs : UnicodeLibs) (bytes : Bytes) (charset : Option String)
    (maxBytes : Nat) (location : String) :
    utf8Len (sanitize libs bytes charset maxBytes location).1 ≤ maxBytes := by
  rw [sanitize, utf8Len_ofList]
  exact utf8LenOf_truncateGraphemes_le libs _ maxBytes

theorem htmlSize_le {part : Part} {s : String} :
    ∀ n ∈ htmlSize libs part s, n ≤ MAX_BODY_BYTES := by
  intro n hn
  unfold htmlSize at hn
  split at hn
  · rename_i result hresult
    rw [← Option.some.inj hn]
    unfold sanitizeHtml at hresult
    split at hresult
    · cases hresult
    · rw [← Except.ok.inj hresult]
      exact utf8Len_sanitize_le libs.toUnicodeLibs _ _ _ "body:html"
  · cases hn

theorem entrySize_le {entry : Nat × Nat} :
    ∀ n ∈ entrySize libs message entry, n ≤ MAX_BODY_BYTES := by
  intro n hn
  obtain ⟨part, -, hsize⟩ := Option.bind_eq_some_iff.mp hn
  rcases hbody : part.body with s | s | bytes | bytes | _ | children
  · simp only [hbody] at hsize
    rw [← Option.some.inj hsize]
    exact utf8Len_sanitize_le _ _ _ _ _
  · simp only [hbody] at hsize
    split at hsize
    · exact htmlSize_le n hsize
    · cases hsize
  all_goals
    simp only [hbody] at hsize
    cases hsize

theorem alternativeSize_le : ∀ n ∈ alternativeSize libs message, n ≤ MAX_BODY_BYTES := by
  intro n hn
  unfold alternativeSize at hn
  split at hn
  · cases hn
  · obtain ⟨part, -, hsize⟩ := Option.bind_eq_some_iff.mp hn
    rcases hbody : part.body with s | s | bytes | bytes | _ | children
    · simp only [hbody] at hsize
      cases hsize
    · simp only [hbody] at hsize
      exact htmlSize_le n hsize
    all_goals
      simp only [hbody] at hsize
      cases hsize

/-- Beyond the cap there is less than one part. -/
theorem bytes_lt_of_extractBodies {bodies : BodyWalkState}
    (h : extractBodies libs message = .ok bodies) :
    bodies.bytes < MAX_TOTAL_BODY_BYTES + MAX_BODY_BYTES := by
  have hstart : (0 : Nat) < MAX_TOTAL_BODY_BYTES := by decide
  rw [bytes_extractBodies h]
  refine RunningTotal.total_lt_add hstart ?_
  intro n hn
  rcases List.mem_append.mp hn with hn | hn
  · obtain ⟨entry, -, hsize⟩ := List.mem_filterMap.mp hn
    exact entrySize_le n hsize
  · exact alternativeSize_le n (Option.mem_toList.mp hn)

/-- Without an HTML part the stage refuses nothing. -/
theorem walkTextBody_ok {libs : ContentLibs} {message : Message} {primaryHtml : Option Nat}
    (htext : ∀ part ∈ message.parts, ∀ s, part.body ≠ .html s) (todo : List (Nat × Nat))
    (state : BodyWalkState) :
    ∃ walked, walkTextBody libs message primaryHtml todo state = .ok walked := by
  induction todo generalizing state with
  | nil => exact ⟨state, rfl⟩
  | cons entry rest ih =>
      obtain ⟨partId, idx⟩ := entry
      unfold walkTextBody
      rcases hpart : message.parts[partId]? with _ | part
      · exact ih state
      · rcases hbody : part.body with s | s | bytes | bytes | _ | children
        · simp only [hbody]
          dsimp only [bind, Except.bind]
          split
          · exact ⟨_, rfl⟩
          · exact ih _
        · exact absurd hbody (htext part (List.mem_of_getElem? hpart) s)
        all_goals
          simp only [hbody]
          exact ih state

/-- **What the cap allows.**  The texts of a result keep to `MAX_TOTAL_BODY_BYTES`
    exactly when no text that is added below the cap carries their sum beyond it. -/
theorem bodyBytes_le_iff_noOvershoot (libs : ContentLibs) (message : Message)
    (bodies : BodyWalkState) (h : extractBodies libs message = .ok bodies) :
    bodies.bytes ≤ MAX_TOTAL_BODY_BYTES ↔
      RunningTotal.NoOvershoot MAX_TOTAL_BODY_BYTES 0 (bodySizes libs message) := by
  have hstart : (0 : Nat) < MAX_TOTAL_BODY_BYTES := by decide
  rw [bytes_extractBodies h]
  exact RunningTotal.total_le_iff hstart

/-- Five text parts of the same text, as mail-parser lists them: a part that is not in
    a `multipart/alternative` is in both bodies. -/
def fivePartMessage (s : String) : Message where
  parts := { body := .multipart [1, 2, 3, 4, 5] } :: List.replicate 5
    { body := .text s, contentType := some ⟨"text", some "plain", some "us-ascii"⟩ }
  textBody := [1, 2, 3, 4, 5]
  htmlBody := [1, 2, 3, 4, 5]

def fivePartLibs (s : String) : ContentLibs := htmlOnlyLibs (fivePartMessage s) [] ""

theorem extractBodies_fivePart (s : String) :
    ∃ bodies, extractBodies (fivePartLibs s) (fivePartMessage s) = .ok bodies := by
  have htext : ∀ part ∈ (fivePartMessage s).parts, ∀ s', part.body ≠ .html s' := by
    intro part hpart s' hbody
    rcases List.mem_cons.mp hpart with rfl | hpart
    · cases hbody
    · rw [List.eq_of_mem_replicate hpart] at hbody
      cases hbody
  obtain ⟨walked, hwalked⟩ : ∃ walked, walkTextBody (fivePartLibs s) (fivePartMessage s) (some 1)
      (fivePartMessage s).textBody.zipIdx {} = .ok walked := walkTextBody_ok htext _ _
  have hcount : ¬MAX_MIME_PARTS < (fivePartMessage s).parts.length := by
    change ¬100 < 6
    decide
  have hdepth : ¬MAX_MIME_DEPTH < depthRecursive (fivePartMessage s).parts MAX_MIME_DEPTH 0 := by
    change ¬8 < 2
    decide
  refine ⟨walked, ?_⟩
  unfold extractBodies
  rw [if_neg hcount, if_neg hdepth]
  change (walkTextBody _ _ (some 1) _ {}).bind (surfaceAlternativeHtml _ _ (some 1)) = _
  rw [hwalked]
  exact ite_self _

theorem bodyBytes_le_iff_noOvershoot_hello :
    ∃ bodies, extractBodies (fivePartLibs "hello") (fivePartMessage "hello") = .ok bodies ∧
      (bodies.bytes ≤ MAX_TOTAL_BODY_BYTES ↔ RunningTotal.NoOvershoot MAX_TOTAL_BODY_BYTES 0
        (bodySizes (fivePartLibs "hello") (fivePartMessage "hello"))) := by
  obtain ⟨bodies, hbodies⟩ := extractBodies_fivePart "hello"
  exact ⟨bodies, hbodies, bodyBytes_le_iff_noOvershoot _ _ bodies hbodies⟩

/-! ### One byte short of the cap of a part -/

theorem utf8Bytes_ofList (text : List Char) :
    utf8Bytes (.ofList text) = text.flatMap String.utf8EncodeChar := by
  unfold utf8Bytes
  rw [String.toUTF8, String.toByteArray_ofList, List.utf8Encode, List.data_toByteArray]

theorem decodeUtf8_replicate (n : Nat) :
    decodeUtf8 (List.replicate n 97) = List.replicate n 'a' := by
  induction n with
  | zero => rfl
  | succ n ih =>
      rcases n with _ | _ | n
      · rfl
      · rfl
      · rw [List.replicate_succ, List.replicate_succ, List.replicate_succ, decodeUtf8,
          if_neg (by decide), ← List.replicate_succ, ← List.replicate_succ, ih]
        rfl

/-- `n` times the letter `a`. -/
def letters (n : Nat) : String := .ofList (List.replicate n 'a')

theorem utf8Len_letters (n : Nat) : utf8Len (letters n) = n := by
  have hsize : Char.utf8Size 'a' = 1 := by decide
  simp [letters, utf8Len, hsize]

theorem utf8Bytes_letters (n : Nat) : utf8Bytes (letters n) = List.replicate n 97 := by
  have hbyte : String.utf8EncodeChar 'a' = [97] := by decide
  rw [letters, utf8Bytes_ofList, List.flatMap_replicate, hbyte, List.flatten_replicate_singleton]

/-- A text of letters that is not too long is what the pipeline makes of it. -/
theorem sanitize_letters (s : String) {n : Nat} (h : n ≤ MAX_BODY_BYTES)
    (charset : Option String) (location : String) :
    (sanitize (fivePartLibs s).toUnicodeLibs (utf8Bytes (letters n)) charset MAX_BODY_BYTES
      location).1 = letters n := by
  have hlen : utf8LenOf (List.replicate n 'a') = n := by
    rw [← utf8Len_ofList]
    exact utf8Len_letters n
  have hlines : normalizeLineEndings (List.replicate n 'a') = List.replicate n 'a' :=
    normalizeLineEndings_eq fun hmem => absurd (List.eq_of_mem_replicate hmem) (by decide)
  have hdecode : (fivePartLibs s).decode (utf8Bytes (letters n)) charset = letters n := by
    change String.ofList (decodeUtf8 _) = _
    rw [utf8Bytes_letters, decodeUtf8_replicate]
    rfl
  have hchars : (letters n).toList = List.replicate n 'a' := String.toList_ofList
  have hfilter : (List.replicate n 'a').filter (fun c => !stripped c) = List.replicate n 'a' :=
    List.filter_eq_self.mpr fun c hc => by
      rw [List.eq_of_mem_replicate hc]
      decide
  have hnfkc : ∀ text, (fivePartLibs s).nfkc text = text := fun _ => rfl
  have hprecap : utf8LenOf (List.replicate n 'a') ≤ MAX_BODY_BYTES * 4 := by omega
  have hcap : utf8LenOf (List.replicate n 'a') ≤ MAX_BODY_BYTES := by omega
  unfold sanitize
  dsimp only
  rw [hdecode, hchars, truncateGraphemes_of_le _ hprecap, hnfkc, String.toList_ofList, hlines,
    filterCodepoints_text, hfilter, truncateGraphemes_of_le _ hcap]
  rfl

theorem bodySizes_letters {n : Nat} (h : n ≤ MAX_BODY_BYTES) :
    bodySizes (fivePartLibs (letters n)) (fivePartMessage (letters n)) = List.replicate 5 n := by
  have hentry (partId idx : Nat) (hpart : (fivePartMessage (letters n)).parts[partId]? = some
        { body := .text (letters n)
          contentType := some ⟨"text", some "plain", some "us-ascii"⟩ }) :
      entrySize (fivePartLibs (letters n)) (fivePartMessage (letters n)) (partId, idx) =
        some n := by
    rw [entrySize, hpart, Option.bind_some]
    dsimp only
    rw [sanitize_letters _ h, utf8Len_letters]
  have halternative :
      alternativeSize (fivePartLibs (letters n)) (fivePartMessage (letters n)) = none :=
    ite_self _
  have hlisted : (fivePartMessage (letters n)).textBody.zipIdx =
      [(1, 0), (2, 1), (3, 2), (4, 3), (5, 4)] := rfl
  rw [bodySizes, halternative, hlisted]
  simp only [List.filterMap_cons, List.filterMap_nil, hentry 1 0 rfl, hentry 2 1 rfl,
    hentry 3 2 rfl, hentry 4 3 rfl, hentry 5 4 rfl]
  rfl

/-- Four parts that are one byte short of the cap of a part leave four bytes of the
    whole cap; the fifth is added as a whole. -/
theorem bodyBytes_above_cap :
    ¬∀ (libs : ContentLibs) (message : Message) (bodies : BodyWalkState),
      extractBodies libs message = .ok bodies → bodies.bytes ≤ MAX_TOTAL_BODY_BYTES := by
  intro hall
  obtain ⟨bodies, hbodies⟩ := extractBodies_fivePart (letters (MAX_BODY_BYTES - 1))
  have hle := hall _ _ bodies hbodies
  rw [bytes_extractBodies hbodies, bodySizes_letters (Nat.sub_le _ _)] at hle
  revert hle
  decide +kernel

/-! ## A text that is cut -/

/-- `decode_text_part` under any cap for a part. -/
def decodeTextPartWith (maxBodyBytes : Nat) (libs : ContentLibs) (part : Part) (rawBytes : Bytes)
    (idx : Nat) (state : BodyWalkState) : BodyWalkState :=
  let location := "body:text[" ++ toString idx ++ "]"
  let sanitized := sanitize libs.toUnicodeLibs rawBytes (partCharset part) maxBodyBytes location
  if maxBodyBytes < rawBytes.length then
    let truncated := warningAt .parseBodyTruncated
      ("original=" ++ toString rawBytes.length ++ " limit=" ++ toString maxBodyBytes) location
    { state with bodyTruncated := true }.addText sanitized.1 (truncated :: sanitized.2)
  else state.addText sanitized.1 sanitized.2

theorem decodeTextPart_eq (part : Part) (rawBytes : Bytes) (idx : Nat) (state : BodyWalkState) :
    decodeTextPart libs part rawBytes idx state =
      decodeTextPartWith MAX_BODY_BYTES libs part rawBytes idx state :=
  rfl

/-- The truncation is reported. -/
def BodyWalkState.flagged (state : BodyWalkState) : Bool :=
  state.bodyTruncated && state.warnings.any fun w => w.code == .parseBodyTruncated

/-- The text that was added last: the first one becomes the body. -/
def BodyWalkState.emitted (before after : BodyWalkState) : Option String :=
  if before.primaryText.isNone then after.primaryText else after.alternates.getLast?

/-- The whole text of the part is there, or its absence is reported. -/
def NotSilent (libs : ContentLibs) (part : Part) (rawBytes : Bytes)
    (before after : BodyWalkState) : Prop :=
  before.emitted after =
      some (.ofList (completeText libs.toUnicodeLibs rawBytes (partCharset part))) ∨
    after.flagged = true

/-- encoding_rs makes of a byte at most the three bytes of U+FFFD. -/
def DecodesThreefold (libs : UnicodeLibs) : Prop :=
  ∀ bytes charset, utf8Len (libs.decode bytes charset) ≤ 3 * bytes.length

theorem emitted_addText (state : BodyWalkState) (truncated : Bool) (text : String)
    (warnings : List SecurityWarning) :
    state.emitted ({ state with bodyTruncated := truncated }.addText text warnings) =
      some text := by
  rcases hprimary : state.primaryText with _ | primary
  · simp [BodyWalkState.emitted, BodyWalkState.addText, hprimary]
  · simp [BodyWalkState.emitted, BodyWalkState.addText, hprimary]

theorem emitted_decodeTextPartWith (maxBodyBytes : Nat) (part : Part) (rawBytes : Bytes)
    (idx : Nat) (state : BodyWalkState) :
    state.emitted (decodeTextPartWith maxBodyBytes libs part rawBytes idx state) =
      some (sanitize libs.toUnicodeLibs rawBytes (partCharset part) maxBodyBytes
        ("body:text[" ++ toString idx ++ "]")).1 := by
  unfold decodeTextPartWith
  dsimp only
  split
  · exact emitted_addText state true _ _
  · exact emitted_addText state state.bodyTruncated _ _

theorem strippedWarning_code {code : WarningCode} {count : Nat} {location : String}
    (hcode : code ≠ .parseBodyTruncated) :
    (strippedWarning code count location).any (fun w => w.code == .parseBodyTruncated) =
      false := by
  unfold strippedWarning
  split
  · simp [warningAt, hcode]
  · rfl

/-- The pipeline itself reports no truncation. -/
theorem sanitize_any_truncated (libs : UnicodeLibs) (bytes : Bytes) (charset : Option String)
    (maxBytes : Nat) (location : String) :
    (sanitize libs bytes charset maxBytes location).2.any
      (fun w => w.code == .parseBodyTruncated) = false := by
  simp [sanitize, buildWarnings, List.any_append, strippedWarning_code]

theorem flagged_decodeTextPartWith (maxBodyBytes : Nat) (part : Part) (rawBytes : Bytes)
    (idx : Nat) (state : BodyWalkState) :
    (decodeTextPartWith maxBodyBytes libs part rawBytes idx state).flagged =
      (decide (maxBodyBytes < rawBytes.length) || state.flagged) := by
  unfold decodeTextPartWith
  dsimp only
  split
  · rename_i hlong
    simp [BodyWalkState.flagged, BodyWalkState.addText, hlong, warningAt]
  · rename_i hlong
    simp [BodyWalkState.flagged, BodyWalkState.addText, hlong, List.any_append,
      sanitize_any_truncated]

theorem notSilent_decodeTextPartWith {maxBodyBytes : Nat} {part : Part} {rawBytes : Bytes}
    (hdecode : utf8Len (libs.decode rawBytes (partCharset part)) ≤ 3 * rawBytes.length)
    (idx : Nat) (state : BodyWalkState) :
    NotSilent libs part rawBytes state
        (decodeTextPartWith maxBodyBytes libs part rawBytes idx state) ↔
      maxBodyBytes < rawBytes.length ∨
        utf8LenOf (completeText libs.toUnicodeLibs rawBytes (partCharset part)) ≤ maxBodyBytes ∨
        state.flagged = true := by
  rw [NotSilent, emitted_decodeTextPartWith, flagged_decodeTextPartWith, Option.some.injEq,
    Bool.or_eq_true, decide_eq_true_iff]
  by_cases hlong : maxBodyBytes < rawBytes.length
  · simp [hlong]
  · have hfits : utf8Len (libs.decode rawBytes (partCharset part)) ≤ maxBodyBytes * 4 := by omega
    rw [sanitize_eq_completeText_iff _ hfits]
    simp [hlong]

/-- **When the flag can be trusted.**  A part's text is complete or reported as cut
    exactly when the part is too long before it is decoded, or its text is short
    enough after it has been normalised and filtered, or something was reported
    already. -/
theorem notSilent_iff (libs : ContentLibs) (hdecode : DecodesThreefold libs.toUnicodeLibs)
    (maxBodyBytes : Nat) (part : Part) (rawBytes : Bytes) (idx : Nat) (state : BodyWalkState) :
    NotSilent libs part rawBytes state
        (decodeTextPartWith maxBodyBytes libs part rawBytes idx state) ↔
      maxBodyBytes < rawBytes.length ∨
        utf8LenOf (completeText libs.toUnicodeLibs rawBytes (partCharset part)) ≤ maxBodyBytes ∨
        state.flagged = true :=
  notSilent_decodeTextPartWith (hdecode rawBytes (partCharset part)) idx state

/-! ### To the end of the stage -/

theorem flagged_append {state state' : BodyWalkState} (hflagged : state.flagged = true)
    (htruncated : state.bodyTruncated = true → state'.bodyTruncated = true)
    (hwarnings : state.warnings <+: state'.warnings) : state'.flagged = true := by
  obtain ⟨more, hmore⟩ := hwarnings
  simp only [BodyWalkState.flagged, Bool.and_eq_true] at hflagged ⊢
  refine ⟨htruncated hflagged.1, ?_⟩
  rw [← hmore, List.any_append, hflagged.2, Bool.true_or]

theorem flagged_sanitizeHtmlPart {part : Part} {rawBytes : Bytes}
    {state state' : BodyWalkState} (hflagged : state.flagged = true)
    (h : sanitizeHtmlPart libs part rawBytes state = .ok state') : state'.flagged = true := by
  unfold sanitizeHtmlPart at h
  split at h
  · cases h
    exact flagged_append hflagged id (List.prefix_append _ _)
  · cases h
    exact flagged_append hflagged (fun _ => rfl) (List.prefix_append _ _)
  · cases h

/-- What is reported for one part is still there at the end of the walk. -/
theorem flagged_walkTextBody {primaryHtml : Option Nat} (todo : List (Nat × Nat))
    {state state' : BodyWalkState} (hflagged : state.flagged = true)
    (h : walkTextBody libs message primaryHtml todo state = .ok state') :
    state'.flagged = true := by
  induction todo generalizing state with
  | nil =>
      cases h
      exact hflagged
  | cons entry rest ih =>
      rcases walkTextBody_cons h with ⟨-, hrest⟩ | ⟨visited, hhandled, hend⟩
      · exact ih hflagged hrest
      · have hvisited : visited.flagged = true := by
          cases hhandled with
          | text hpart hbody hvisited =>
              rw [← hvisited, decodeTextPart_eq, flagged_decodeTextPartWith, hflagged,
                Bool.or_true]
          | html hpart hbody hprimary hvisited => exact flagged_sanitizeHtmlPart hflagged hvisited
        rcases hend with ⟨-, rfl⟩ | ⟨-, hrest⟩
        · exact flagged_append hvisited (fun _ => rfl) (List.prefix_append _ _)
        · exact ih hvisited hrest

theorem flagged_surfaceAlternativeHtml {primaryHtml : Option Nat} {walked bodies : BodyWalkState}
    (hflagged : walked.flagged = true)
    (h : surfaceAlternativeHtml libs message primaryHtml walked = .ok bodies) :
    bodies.flagged = true := by
  unfold surfaceAlternativeHtml at h
  split at h
  · cases h
    exact hflagged
  · split at h
    · split at h
      · exact flagged_sanitizeHtmlPart hflagged h
      · cases h
        exact hflagged
    · cases h
      exact hflagged

theorem utf8LenOf_decodeUtf8_le (bytes : Bytes) :
    utf8LenOf (decodeUtf8 bytes) ≤ 3 * bytes.length := by
  have hbyte : ∀ n < 256, (Char.ofNat n).utf8Size ≤ 3 := by decide +kernel
  induction bytes using decodeUtf8.induct with
  | case1 b0 b1 b2 rest hthree ih =>
      rw [decodeUtf8, if_pos hthree, utf8LenOf_cons]
      have hsize := Char.utf8Size_le_four
        (Char.ofNat ((b0.toNat % 16 * 64 + b1.toNat % 64) * 64 + b2.toNat % 64))
      simp only [List.length_cons]
      omega
  | case2 b0 b1 b2 rest hone ih =>
      rw [decodeUtf8, if_neg hone, utf8LenOf_cons]
      have hsize := hbyte b0.toNat b0.toNat_lt
      simp only [List.length_cons] at ih ⊢
      omega
  | case3 b0 rest hshort ih =>
      rw [decodeUtf8, utf8LenOf_cons]
      · have hsize := hbyte b0.toNat b0.toNat_lt
        simp only [List.length_cons]
        omega
      · exact hshort
  | case4 => exact Nat.zero_le _

/-! ### A parenthesised number

U+247D takes three bytes, `(10)` four.  The decoder and the normaliser do on it and on
ASCII what the real ones do. -/

def numberLibs : ContentLibs :=
  { htmlOnlyLibs {} [] "" with
    nfkc := fun s => .ofList (s.toList.flatMap fun c =>
      if c = '\u247D' then ['(', '1', '0', ')'] else [c]) }

theorem decodesThreefold_numberLibs : DecodesThreefold numberLibs.toUnicodeLibs := by
  intro bytes charset
  change utf8Len (.ofList (decodeUtf8 bytes)) ≤ _
  rw [utf8Len_ofList]
  exact utf8LenOf_decodeUtf8_le bytes

theorem notSilent_iff_number :
    NotSilent numberLibs { body := .text "\u247D" } (utf8Bytes "\u247D") {}
        (decodeTextPartWith 3 numberLibs { body := .text "\u247D" } (utf8Bytes "\u247D") 0 {}) ↔
      3 < (utf8Bytes "\u247D").length ∨
        utf8LenOf (completeText numberLibs.toUnicodeLibs (utf8Bytes "\u247D") none) ≤ 3 ∨
        BodyWalkState.flagged {} = true :=
  notSilent_iff numberLibs decodesThreefold_numberLibs 3 _ _ 0 {}

def numbers (n : Nat) : List Char := List.replicate n '\u247D'

theorem utf8Bytes_numbers (n : Nat) :
    utf8Bytes (.ofList (numbers n)) = (List.replicate n [0xE2, 0x91, 0xBD]).flatten := by
  rw [numbers, utf8Bytes_ofList, List.flatMap_replicate]
  rfl

theorem length_utf8Bytes_numbers (n : Nat) :
    (utf8Bytes (.ofList (numbers n))).length = n * 3 := by
  rw [utf8Bytes_numbers, List.length_flatten, List.map_replicate, List.sum_replicate_nat]
  rfl

theorem decode_numbers (n : Nat) (charset : Option String) :
    numberLibs.decode (utf8Bytes (.ofList (numbers n))) charset = .ofList (numbers n) := by
  change String.ofList (decodeUtf8 _) = _
  rw [utf8Bytes_numbers, numbers]
  congr 1
  induction n with
  | zero => rfl
  | succ n ih =>
      rw [List.replicate_succ, List.flatten_cons, List.replicate_succ, ← ih]
      rfl

theorem utf8LenOf_completeText_numbers (n : Nat) (charset : Option String) :
    utf8LenOf (completeText numberLibs.toUnicodeLibs (utf8Bytes (.ofList (numbers n)))
      charset) = 4 * n := by
  have hnormal : numberLibs.nfkc (.ofList (numbers n)) =
      .ofList (List.replicate n ['(', '1', '0', ')']).flatten := by
    change String.ofList (List.flatMap _ (String.ofList (numbers n)).toList) = _
    rw [String.toList_ofList, numbers, List.flatMap_replicate]
    rfl
  have hmem : ∀ c ∈ (List.replicate n ['(', '1', '0', ')']).flatten,
      c ∈ ['(', '1', '0', ')'] := by
    intro c hc
    obtain ⟨number, hnumber, hc⟩ := List.mem_flatten.mp hc
    rwa [List.eq_of_mem_replicate hnumber] at hc
  have hall : (['(', '1', '0', ')'].all fun c => c != '\r' && !stripped c) = true := by decide
  have hkept : ∀ c ∈ ['(', '1', '0', ')'], c ≠ '\r' ∧ (!stripped c) = true := by
    intro c hc
    simpa using List.all_eq_true.mp hall c hc
  rw [completeText, decode_numbers, hnormal, String.toList_ofList,
    normalizeLineEndings_eq fun hc => (hkept _ (hmem _ hc)).1 rfl, filterCodepoints_text,
    List.filter_eq_self.mpr fun c hc => (hkept c (hmem c hc)).2]
  clear hnormal hmem
  induction n with
  | zero => rfl
  | succ n ih =>
      have hsize : utf8LenOf ['(', '1', '0', ')'] = 4 := by decide
      rw [List.replicate_succ, List.flatten_cons, utf8LenOf_append, ih, hsize]
      omega

theorem notSilent_numbers (n : Nat) (part : Part) :
    NotSilent numberLibs part (utf8Bytes (.ofList (numbers n))) {}
        (decodeTextPart numberLibs part (utf8Bytes (.ofList (numbers n))) 0 {}) ↔
      MAX_BODY_BYTES < n * 3 ∨ 4 * n ≤ MAX_BODY_BYTES := by
  have hflagged : BodyWalkState.flagged {} = false := rfl
  rw [decodeTextPart_eq, notSilent_decodeTextPartWith (decodesThreefold_numberLibs _ _),
    utf8LenOf_completeText_numbers, length_utf8Bytes_numbers, hflagged]
  simp

/-- As many of them as the cap lets through: the normaliser makes a third more of it,
    the rest is cut off and nothing says so. -/
theorem not_notSilent_numbers :
    ¬∀ (libs : ContentLibs), DecodesThreefold libs.toUnicodeLibs →
      ∀ (part : Part) (rawBytes : Bytes) (idx : Nat),
        NotSilent libs part rawBytes {} (decodeTextPart libs part rawBytes idx {}) := by
  intro hall
  have hnumbers := (notSilent_numbers 349525 { body := .text (.ofList (numbers 349525)) }).mp
    (hall numberLibs decodesThreefold_numberLibs _ _ 0)
  revert hnumbers
  decide

end RustyImap.ContentParse
