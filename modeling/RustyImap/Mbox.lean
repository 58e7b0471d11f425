import RustyImap.SeparatedLines

/-!
# The mboxrd framing of exported messages

`rimap-server/src/tools/retrieval/mbox.rs`: `build_mbox` with its line loop, and
the reader its own tests use (`split_and_unescape`).  Messages are arbitrary
byte strings.

The framing is closed under concatenation: after every message the buffer is a
sequence of terminated lines, so the reader cuts it where the writer did.  A
body line never equals the separator, because a line that starts with `From `
has been given a `>`.
-/

namespace RustyImap.Mbox

open RustyImap.SeparatedLines

def LF : UInt8 := 10

def GT : UInt8 := 62

def FROM : List UInt8 := "From ".toUTF8.data.toList

/-- Pinned mboxrd separator, a whole line. -/
def MBOX_SEPARATOR : List UInt8 :=
  "From mboxrd@rusty-imap-mcp Thu Jan  1 00:00:00 1970\n".toUTF8.data.toList

/-! ## The writer -/

/-- Whether the line is a run of `>` followed by `From `. -/
def lineIsFrom (line : List UInt8) : Bool :=
  FROM.isPrefixOf (line.dropWhile (· == GT))

def writeMboxLine (out line : List UInt8) : List UInt8 :=
  if lineIsFrom line then out ++ [GT] ++ line else out ++ line

/-- The loop of `escape_from_lines_into`: `line` is the slice from `line_start`
    to the current index, the list what is still ahead. -/
def escapeLoop (out line : List UInt8) : List UInt8 → List UInt8
  | [] => if line.isEmpty then out else writeMboxLine out line
  | b :: rest =>
      if b = LF then escapeLoop (writeMboxLine out (line ++ [b])) [] rest
      else escapeLoop out (line ++ [b]) rest

def escapeFromLinesInto (out msg : List UInt8) : List UInt8 := escapeLoop out [] msg

/-- Push a line feed unless the buffer is empty or ends in one. -/
def padNewline (out : List UInt8) : List UInt8 :=
  match out.getLast? with
  | some last => if last ≠ LF then out ++ [LF] else out
  | none => out

def buildMbox (messages : List (List UInt8)) : List UInt8 :=
  padNewline <| messages.foldl
    (fun out msg => escapeFromLinesInto (padNewline out ++ MBOX_SEPARATOR) msg) []

/-! ## The reader -/

def unescapeLine (line : List UInt8) : List UInt8 :=
  let arrows := (line.takeWhile (· == GT)).length
  if 1 ≤ arrows ∧ FROM.isPrefixOf (line.drop arrows) = true then line.drop 1 else line

/-- One line of the loop of `split_and_unescape`: finished parts, current part. -/
def readLine (state : List (List UInt8) × Option (List UInt8)) (line : List UInt8) :
    List (List UInt8) × Option (List UInt8) :=
  if line = MBOX_SEPARATOR then (state.1 ++ state.2.toList, some [])
  else (state.1, state.2.map (· ++ unescapeLine line))

def splitAndUnescape (mbox : List UInt8) : List (List UInt8) :=
  let state := (splitKeep LF mbox).foldl readLine ([], none)
  state.1 ++ state.2.toList

/-- A message as the reader gives it back. -/
def terminated (msg : List UInt8) : List UInt8 :=
  if msg ≠ [] ∧ msg.getLast? ≠ some LF then msg ++ [LF] else msg

/-! ## One line -/

def escapeLine (line : List UInt8) : List UInt8 := if lineIsFrom line then GT :: line else line

theorem writeMboxLine_eq (out line : List UInt8) :
    writeMboxLine out line = out ++ escapeLine line := by
  unfold writeMboxLine escapeLine
  split <;> simp

theorem drop_length_takeWhile {α : Type*} (p : α → Bool) (l : List α) :
    l.drop (l.takeWhile p).length = l.dropWhile p := by
  induction l with
  | nil => rfl
  | cons x xs ih =>
      by_cases h : p x = true
      · simp [h, ih]
      · simp [h]

theorem unescapeLine_escapeLine (line : List UInt8) : unescapeLine (escapeLine line) = line := by
  unfold escapeLine unescapeLine
  by_cases h : lineIsFrom line = true
  · have hgt : (GT :: line).takeWhile (· == GT) = GT :: line.takeWhile (· == GT) := by simp
    have hrest : (GT :: line).drop (GT :: line.takeWhile (· == GT)).length =
        line.dropWhile (· == GT) := by
      rw [List.length_cons, List.drop_succ_cons, drop_length_takeWhile]
    simp only [if_pos h, hgt, hrest]
    rw [if_pos ⟨by simp, h⟩]
    rfl
  · simp only [if_neg h, drop_length_takeWhile]
    rw [if_neg fun hfrom => h hfrom.2]

/-- An escaped line does not start with `From `. -/
theorem not_from_escapeLine (line : List UInt8) : FROM.isPrefixOf (escapeLine line) = false := by
  have hfrom : FROM = [70, 114, 111, 109, 32] := by decide
  unfold escapeLine
  by_cases h : lineIsFrom line = true
  · rw [if_pos h, hfrom]
    rfl
  · rw [if_neg h]
    by_contra hstarts
    rw [Bool.not_eq_false] at hstarts
    apply h
    -- a line that starts with `From ` has no `>` to skip
    cases line with
    | nil => rw [hfrom] at hstarts; cases hstarts
    | cons b rest =>
        have hb : b = 70 := by
          rw [hfrom] at hstarts
          simp only [List.isPrefixOf, Bool.and_eq_true, beq_iff_eq] at hstarts
          exact hstarts.1.symm
        subst hb
        exact hstarts

theorem isLine_escapeLine {line : List UInt8} (h : IsLine LF line) :
    IsLine LF (escapeLine line) := by
  unfold escapeLine
  split
  · obtain ⟨body, hbody, rfl⟩ := h
    refine ⟨GT :: body, ?_, rfl⟩
    intro hmem
    rcases List.mem_cons.mp hmem with heq | hmem
    · exact absurd heq (by decide)
    · exact hbody hmem
  · exact h

theorem isLine_separator : IsLine LF MBOX_SEPARATOR :=
  ⟨MBOX_SEPARATOR.dropLast, by decide, by decide⟩

/-! ## One message -/

theorem escapeLoop_eq (out line rest : List UInt8) (hline : LF ∉ line) :
    escapeLoop out line rest =
      out ++ ((splitKeep LF (line ++ rest)).map escapeLine).flatten := by
  induction rest generalizing out line with
  | nil =>
      cases line with
      | nil => simp [escapeLoop]
      | cons b line =>
          rw [List.append_nil, splitKeep_of_not_mem (List.cons_ne_nil b line) hline]
          simp [escapeLoop, writeMboxLine_eq]
  | cons b rest ih =>
      by_cases hb : b = LF
      · -- the line is complete
        subst hb
        have hcut : splitKeep LF (line ++ LF :: rest) = (line ++ [LF]) :: splitKeep LF rest := by
          rw [List.append_cons]
          exact splitKeep_line_append ⟨line, hline, rfl⟩ rest
        rw [hcut, escapeLoop, if_pos rfl, ih _ [] (by simp), writeMboxLine_eq]
        simp
      · have hline' : LF ∉ line ++ [b] := by
          intro hmem
          rcases List.mem_append.mp hmem with hmem | hmem
          · exact hline hmem
          · exact hb (List.mem_singleton.mp hmem).symm
        rw [escapeLoop, if_neg hb, ih _ _ hline', ← List.append_cons]

theorem escapeFromLinesInto_eq (out msg : List UInt8) :
    escapeFromLinesInto out msg = out ++ ((splitKeep LF msg).map escapeLine).flatten :=
  escapeLoop_eq out [] msg (by simp)

/-- The line feed that is added later does not turn a line into a `From ` line. -/
theorem lineIsFrom_concat (line : List UInt8) : lineIsFrom (line ++ [LF]) = lineIsFrom line := by
  have hskip : (line ++ [LF]).dropWhile (· == GT) = line.dropWhile (· == GT) ++ [LF] := by
    induction line with
    | nil => decide
    | cons b line ih =>
        by_cases hb : b = GT
        · simp [hb, ih]
        · simp [hb]
  rw [lineIsFrom, lineIsFrom, hskip, Bool.eq_iff_iff, List.isPrefixOf_iff_prefix,
    List.isPrefixOf_iff_prefix, List.prefix_concat_iff]
  constructor
  · rintro (heq | hstarts)
    · have hlast : FROM.getLast? = some LF := by rw [heq]; simp
      exact absurd hlast (by decide)
    · exact hstarts
  · exact Or.inr

theorem escapeLine_concat (line : List UInt8) :
    escapeLine (line ++ [LF]) = escapeLine line ++ [LF] := by
  unfold escapeLine
  rw [lineIsFrom_concat]
  split <;> rfl

theorem padNewline_concat (out : List UInt8) : padNewline (out ++ [LF]) = out ++ [LF] := by
  simp [padNewline]

theorem padNewline_of_line {out line : List UInt8} (h : IsLine LF line) :
    padNewline (out ++ line) = out ++ line := by
  obtain ⟨body, -, rfl⟩ := h
  rw [← List.append_assoc]
  exact padNewline_concat _

theorem padNewline_of_not_mem {out tail : List UInt8} (htail : tail ≠ []) (h : LF ∉ tail) :
    padNewline (out ++ tail) = out ++ tail ++ [LF] := by
  have hlast : (out ++ tail).getLast? = some (tail.getLast htail) := by
    rw [List.getLast?_append_of_ne_nil _ htail, List.getLast?_eq_some_getLast htail]
  have hne : tail.getLast htail ≠ LF := fun heq => h (heq ▸ List.getLast_mem htail)
  simp [padNewline, hlast, hne]

/-- How a message falls into lines, before and after its last line is completed. -/
theorem lines_cases (msg : List UInt8) :
    ∃ lines, (∀ line ∈ lines, IsLine LF line) ∧
      ((splitKeep LF msg = lines ∧ terminated msg = msg) ∨
        ∃ tail, tail ≠ [] ∧ LF ∉ tail ∧ splitKeep LF msg = lines ++ [tail] ∧
          terminated msg = msg ++ [LF] ∧
          splitKeep LF (terminated msg) = lines ++ [tail ++ [LF]]) := by
  obtain ⟨lines, tail, hlines, htail, rfl⟩ := exists_lines_tail LF msg
  refine ⟨lines, hlines, ?_⟩
  by_cases hempty : tail = []
  · left
    subst hempty
    rw [List.append_nil]
    refine ⟨splitKeep_flatten hlines, ?_⟩
    unfold terminated
    rw [if_neg]
    rintro ⟨hne, hlast⟩
    -- the last line ends in a line feed
    have hlines' : lines ≠ [] := fun heq => hne (by rw [heq]; rfl)
    obtain ⟨body, -, hbody⟩ := hlines _ (List.getLast_mem hlines')
    apply hlast
    rw [← List.dropLast_append_getLast hlines', List.flatten_append, hbody]
    simp
  · right
    have hterm : terminated (lines.flatten ++ tail) = lines.flatten ++ tail ++ [LF] := by
      unfold terminated
      rw [if_pos]
      refine ⟨by simp [hempty], ?_⟩
      rw [List.getLast?_append_of_ne_nil _ hempty, List.getLast?_eq_some_getLast hempty]
      intro heq
      exact htail (Option.some.inj heq ▸ List.getLast_mem hempty)
    refine ⟨tail, hempty, htail, ?_, hterm, ?_⟩
    · rw [splitKeep_flatten_append hlines, splitKeep_of_not_mem hempty htail]
    · have hline : IsLine LF (tail ++ [LF]) := ⟨tail, htail, rfl⟩
      have hlast := splitKeep_line_append hline []
      rw [List.append_nil] at hlast
      rw [hterm, List.append_assoc, splitKeep_flatten_append hlines, hlast]
      rfl

theorem isLine_of_mem_terminated {msg line : List UInt8}
    (h : line ∈ splitKeep LF (terminated msg)) : IsLine LF line := by
  obtain ⟨lines, hlines, ⟨hcut, hsame⟩ | ⟨tail, -, htail, -, -, hcut⟩⟩ := lines_cases msg
  · rw [hsame, hcut] at h
    exact hlines line h
  · rw [hcut] at h
    rcases List.mem_append.mp h with h | h
    · exact hlines line h
    · rw [List.mem_singleton.mp h]
      exact ⟨tail, htail, rfl⟩

/-- What a message contributes to the file: the separator and its lines, each
    escaped. -/
def frame (msg : List UInt8) : List (List UInt8) :=
  MBOX_SEPARATOR :: (splitKeep LF (terminated msg)).map escapeLine

theorem isLine_of_mem_frame {msg line : List UInt8} (h : line ∈ frame msg) : IsLine LF line := by
  rcases List.mem_cons.mp h with rfl | h
  · exact isLine_separator
  · obtain ⟨line, hmem, rfl⟩ := List.mem_map.mp h
    exact isLine_escapeLine (isLine_of_mem_terminated hmem)

/-- One turn of the loop, completed by the padding of the next one. -/
theorem padNewline_escape (out msg : List UInt8) :
    padNewline (escapeFromLinesInto (out ++ MBOX_SEPARATOR) msg) =
      out ++ (frame msg).flatten := by
  rw [escapeFromLinesInto_eq, frame, List.flatten_cons, ← List.append_assoc]
  obtain ⟨lines, hlines, ⟨hcut, hsame⟩ | ⟨tail, hne, htail, hcut, -, hcut'⟩⟩ := lines_cases msg
  · rw [hsame, hcut]
    -- the buffer ends in the separator or in the last line of the message
    rcases List.eq_nil_or_concat lines with rfl | ⟨init, last, rfl⟩
    · simpa using padNewline_of_line isLine_separator
    · have hlast : IsLine LF (escapeLine last) := isLine_escapeLine (hlines last (by simp))
      simp only [List.concat_eq_append, List.map_append, List.flatten_append, List.map_cons,
        List.map_nil, List.flatten_cons, List.flatten_nil, List.append_nil]
      rw [← List.append_assoc]
      exact padNewline_of_line hlast
  · have hne' : escapeLine tail ≠ [] := by
      unfold escapeLine
      split <;> simp [hne]
    have htail' : LF ∉ escapeLine tail := by
      unfold escapeLine
      split
      · intro hmem
        rcases List.mem_cons.mp hmem with heq | hmem
        · exact absurd heq (by decide)
        · exact htail hmem
      · exact htail
    rw [hcut, hcut']
    simp only [List.map_append, List.flatten_append, List.map_cons, List.map_nil,
      List.flatten_cons, List.flatten_nil, List.append_nil, escapeLine_concat]
    rw [← List.append_assoc, padNewline_of_not_mem hne' htail']
    simp

/-! ## The whole file -/

theorem buildMbox_eq (messages : List (List UInt8)) :
    buildMbox messages = ((messages.map frame).flatten).flatten := by
  have hloop : ∀ out, padNewline (messages.foldl
      (fun out msg => escapeFromLinesInto (padNewline out ++ MBOX_SEPARATOR) msg) out) =
        padNewline out ++ ((messages.map frame).flatten).flatten := by
    induction messages with
    | nil => intro out; simp
    | cons msg messages ih =>
        intro out
        rw [List.foldl_cons, ih, padNewline_escape]
        simp
  have hstart := hloop []
  simpa [buildMbox, padNewline] using hstart

theorem splitKeep_buildMbox (messages : List (List UInt8)) :
    splitKeep LF (buildMbox messages) = (messages.map frame).flatten := by
  rw [buildMbox_eq]
  apply splitKeep_flatten
  intro line hmem
  obtain ⟨lines, hlines, hline⟩ := List.mem_flatten.mp hmem
  obtain ⟨msg, -, rfl⟩ := List.mem_map.mp hlines
  exact isLine_of_mem_frame hline

theorem separator_ne_escapeLine (line : List UInt8) : escapeLine line ≠ MBOX_SEPARATOR := by
  intro heq
  have hnot := not_from_escapeLine line
  rw [heq] at hnot
  exact absurd hnot (by decide)

theorem foldl_readLine_lines (parts : List (List UInt8)) (part : List UInt8)
    (lines : List (List UInt8)) :
    (lines.map escapeLine).foldl readLine (parts, some part) =
      (parts, some (part ++ lines.flatten)) := by
  induction lines generalizing part with
  | nil => simp
  | cons line lines ih =>
      have hread :
          readLine (parts, some part) (escapeLine line) = (parts, some (part ++ line)) := by
        simp [readLine, separator_ne_escapeLine, unescapeLine_escapeLine]
      rw [List.map_cons, List.foldl_cons, hread, ih]
      simp

/-- Reading a frame closes the current part and opens the frame's message. -/
theorem foldl_readLine_frame (state : List (List UInt8) × Option (List UInt8))
    (msg : List UInt8) :
    (frame msg).foldl readLine state = (state.1 ++ state.2.toList, some (terminated msg)) := by
  have hopen : readLine state MBOX_SEPARATOR = (state.1 ++ state.2.toList, some []) := by
    simp [readLine]
  rw [frame, List.foldl_cons, hopen, foldl_readLine_lines]
  simp

theorem foldl_readLine_frames (messages : List (List UInt8))
    (state : List (List UInt8) × Option (List UInt8)) :
    let last := ((messages.map frame).flatten).foldl readLine state
    last.1 ++ last.2.toList = state.1 ++ state.2.toList ++ messages.map terminated := by
  induction messages generalizing state with
  | nil => simp
  | cons msg messages ih =>
      simp only [List.map_cons, List.flatten_cons, List.foldl_append, foldl_readLine_frame]
      rw [ih]
      simp

theorem countP_from_frame (msg : List UInt8) : (frame msg).countP FROM.isPrefixOf = 1 := by
  have hsep : FROM.isPrefixOf MBOX_SEPARATOR = true := by decide
  have hlines : ((splitKeep LF (terminated msg)).map escapeLine).countP FROM.isPrefixOf = 0 := by
    rw [List.countP_eq_zero]
    intro line hmem
    obtain ⟨line, -, rfl⟩ := List.mem_map.mp hmem
    rw [not_from_escapeLine]
    exact Bool.false_ne_true
  rw [frame, List.countP_cons_of_pos hsep, hlines]

theorem splitAndUnescape_buildMbox (messages : List (List UInt8)) :
    splitAndUnescape (buildMbox messages) = messages.map terminated := by
  rw [splitAndUnescape, splitKeep_buildMbox]
  have hread := foldl_readLine_frames messages ([], none)
  simpa using hread

/-- **The mboxrd framing is reversible.**  For all messages, whatever bytes they
    hold, the reader returns them in order, each completed by a line feed where
    it had none at its end, and the file holds one line starting with `From `
    for each message. -/
theorem buildMbox_reversible (messages : List (List UInt8)) :
    splitAndUnescape (buildMbox messages) = messages.map terminated ∧
      (splitKeep LF (buildMbox messages)).countP FROM.isPrefixOf = messages.length := by
  refine ⟨splitAndUnescape_buildMbox messages, ?_⟩
  rw [splitKeep_buildMbox]
  induction messages with
  | nil => rfl
  | cons msg messages ih =>
      rw [List.map_cons, List.flatten_cons, List.countP_append, countP_from_frame, ih]
      simp [Nat.add_comm]

/-- A body line that is itself a separator, and one already quoted twice. -/
example : splitAndUnescape (buildMbox [MBOX_SEPARATOR ++ [GT, GT] ++ FROM, []]) =
    [MBOX_SEPARATOR ++ [GT, GT] ++ FROM ++ [LF], []] := by decide

end RustyImap.Mbox
