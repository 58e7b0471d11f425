import RustyImap.ContentParse
import RustyImap.SeparatedLines

/-!
# What the header scrubber removes (`rimap-content/src/parse/mime_scrub.rs`)

The scrubber cuts the header block into logical lines, marks those that take
part in an encoded-word that does not end in its own line, and writes the rest
followed by the bytes behind the block.

Two questions are settled here.  One is whether a second pass would find more:
a kept line opens no encoded-word that it does not close, and marking starts
only at a line that does, so what is kept is a fixpoint.  The other is where
the block ends: `find_header_end` looks for a blank line in CRLF convention in
the whole message before it looks for one in LF convention, and so may place
the end of the headers behind the first empty line.
-/

namespace RustyImap.HeaderScrub

open ContentParse UnicodeFilter HtmlBody
open SeparatedLines (splitKeep IsLine)

/-! ## Lines and masks -/

section Mask

variable {α : Type*}

/-- The lines that a mask leaves out. -/
def unmarked (lines : List α) (mask : List Bool) : List α :=
  ((lines.zip mask).filter (!·.2)).map Prod.fst

def marked (lines : List α) (mask : List Bool) : List α :=
  ((lines.zip mask).filter (·.2)).map Prod.fst

@[simp] theorem unmarked_nil (mask : List Bool) : unmarked ([] : List α) mask = [] := rfl

@[simp] theorem unmarked_cons_true (line : α) (lines : List α) (mask : List Bool) :
    unmarked (line :: lines) (true :: mask) = unmarked lines mask := rfl

@[simp] theorem unmarked_cons_false (line : α) (lines : List α) (mask : List Bool) :
    unmarked (line :: lines) (false :: mask) = line :: unmarked lines mask := rfl

theorem unmarked_append {lines : List α} {mask : List Bool} (h : lines.length = mask.length)
    (lines' : List α) (mask' : List Bool) :
    unmarked (lines ++ lines') (mask ++ mask') = unmarked lines mask ++ unmarked lines' mask' := by
  unfold unmarked
  rw [List.zip_append h, List.filter_append, List.map_append]

theorem unmarked_sublist (lines : List α) (mask : List Bool) :
    (unmarked lines mask).Sublist lines := by
  induction lines generalizing mask with
  | nil => exact List.Sublist.refl _
  | cons line lines ih =>
      cases mask with
      | nil => exact List.nil_sublist _
      | cons flag mask =>
          cases flag with
          | false => exact (ih mask).cons_cons line
          | true => exact (ih mask).cons line

/-- Every line is either kept or dropped. -/
theorem length_unmarked_add_marked {lines : List α} {mask : List Bool}
    (h : lines.length = mask.length) :
    (unmarked lines mask).length + (marked lines mask).length = lines.length := by
  induction lines generalizing mask with
  | nil => rfl
  | cons line lines ih =>
      cases mask with
      | nil => simp at h
      | cons flag mask =>
          have hlength : lines.length = mask.length := by simpa using h
          have hrest := ih hlength
          cases flag <;> simp [unmarked, marked] at hrest ⊢ <;> omega

theorem unmarked_eq_self {lines : List α} {mask : List Bool} (h : lines.length = mask.length)
    (hclear : ∀ flag ∈ mask, flag = false) : unmarked lines mask = lines := by
  induction lines generalizing mask with
  | nil => rfl
  | cons line lines ih =>
      cases mask with
      | nil => simp at h
      | cons flag mask =>
          obtain rfl := hclear flag (by simp)
          have hlength : lines.length = mask.length := by simpa using h
          rw [unmarked_cons_false, ih hlength fun flag hflag => hclear flag (by simp [hflag])]

/-- Dropping a line that is not empty is seen in the length. -/
theorem length_flatten_unmarked_lt {lines : List (List α)} {mask : List Bool}
    (h : lines.length = mask.length) (hne : ∀ line ∈ lines, line ≠ []) (hmark : true ∈ mask) :
    (unmarked lines mask).flatten.length < lines.flatten.length := by
  induction lines generalizing mask with
  | nil =>
      cases mask with
      | nil => simp at hmark
      | cons flag mask => simp at h
  | cons line lines ih =>
      cases mask with
      | nil => simp at h
      | cons flag mask =>
          have hlength : lines.length = mask.length := by simpa using h
          have hrest : ∀ line ∈ lines, line ≠ [] := fun line hline => hne line (by simp [hline])
          cases flag with
          | false =>
              have hless := ih hlength hrest (by simpa using hmark)
              rw [unmarked_cons_false, List.flatten_cons, List.flatten_cons, List.length_append,
                List.length_append]
              omega
          | true =>
              have hline : 0 < line.length := List.length_pos_iff.mpr (hne line (by simp))
              have hle : (unmarked lines mask).flatten.length ≤ lines.flatten.length :=
                (List.Sublist.flatten (unmarked_sublist lines mask)).length_le
              rw [unmarked_cons_true, List.flatten_cons, List.length_append]
              omega

end Mask

/-! ## Logical lines -/

theorem flatten_splitHeaderLines (line bytes : Bytes) :
    (splitHeaderLines line bytes).flatten = line ++ bytes := by
  induction bytes generalizing line with
  | nil =>
      unfold splitHeaderLines
      split
      case isTrue h => simp [List.isEmpty_iff.mp h]
      case isFalse => simp
  | cons b rest ih =>
      unfold splitHeaderLines
      split
      · rw [List.flatten_cons, ih]
        simp
      · rw [ih]
        simp

theorem ne_nil_of_mem_splitHeaderLines {line bytes logical : Bytes}
    (h : logical ∈ splitHeaderLines line bytes) : logical ≠ [] := by
  induction bytes generalizing line with
  | nil =>
      unfold splitHeaderLines at h
      split at h
      case isTrue => simp at h
      case isFalse hne =>
        rw [List.mem_singleton.mp h]
        exact fun hnil => hne (by simp [hnil])
  | cons b rest ih =>
      unfold splitHeaderLines at h
      split at h
      · rcases List.mem_cons.mp h with rfl | h
        · simp
        · exact ih h
      · exact ih h

/-- What follows continues the line before it. -/
def foldsInto (rest : Bytes) : Bool := rest.head? == some 32 || rest.head? == some 9

/-- A physical line is a logical line of its own when nothing folds into it. -/
theorem splitHeaderLines_line {physical : Bytes} (hline : IsLine 10 physical) (line rest : Bytes) :
    splitHeaderLines line (physical ++ rest) =
      if foldsInto rest then splitHeaderLines (line ++ physical) rest
      else (line ++ physical) :: splitHeaderLines [] rest := by
  obtain ⟨body, hbody, rfl⟩ := hline
  induction body generalizing line with
  | nil =>
      rw [List.nil_append, List.singleton_append, splitHeaderLines]
      cases hfold : foldsInto rest with
      | false =>
          unfold foldsInto at hfold
          simp [hfold]
      | true =>
          unfold foldsInto at hfold
          simp [hfold]
  | cons b body ih =>
      have hb : b ≠ 10 := fun heq => hbody (by simp [heq])
      have hrest : (10 : UInt8) ∉ body := fun hmem => hbody (by simp [hmem])
      have hstep : splitHeaderLines line ((b :: body ++ [10]) ++ rest) =
          splitHeaderLines (line ++ [b]) ((body ++ [10]) ++ rest) := by
        rw [List.cons_append, List.cons_append, splitHeaderLines]
        simp [hb]
      rw [hstep, ih (line ++ [b]) hrest]
      simp

/-- Terminated lines in front of something that does not fold into them are cut
    by themselves. -/
theorem splitHeaderLines_append {physical : List Bytes}
    (hlines : ∀ p ∈ physical, IsLine 10 p) {rest : Bytes} (hfold : foldsInto rest = false)
    (line : Bytes) (hopen : physical = [] → line = []) :
    splitHeaderLines line (physical.flatten ++ rest) =
      splitHeaderLines line physical.flatten ++ splitHeaderLines [] rest := by
  induction physical generalizing line with
  | nil => simp [hopen rfl, splitHeaderLines]
  | cons p physical ih =>
      have hp := hlines p (by simp)
      have hrest := fun p hp => hlines p (List.mem_cons_of_mem _ hp)
      rw [List.flatten_cons, List.append_assoc, splitHeaderLines_line hp,
        splitHeaderLines_line hp]
      cases hphysical : physical with
      | nil =>
          have hend : foldsInto [] = false := rfl
          rw [List.flatten_nil, List.nil_append, hfold, hend]
          simp [splitHeaderLines]
      | cons p' physical' =>
          rw [← hphysical]
          have hne : physical ≠ [] := by simp [hphysical]
          have hhead : foldsInto (physical.flatten ++ rest) = foldsInto physical.flatten := by
            obtain ⟨body, -, rfl⟩ := hrest p' (by simp [hphysical])
            rw [hphysical]
            cases body <;> simp [foldsInto]
          rw [hhead]
          split
          · exact ih hrest _ fun hnil => absurd hnil hne
          · rw [ih hrest [] fun _ => rfl]
            rfl

/-! ## The first empty line -/

/-- A line of nothing but its ending, LF or CRLF. -/
def isEmptyLine (line : Bytes) : Bool := line == [10] || line == [13, 10]

/-- The bytes before the first empty line. -/
def headerPart (raw : Bytes) : Bytes :=
  ((splitKeep 10 raw).takeWhile (!isEmptyLine ·)).flatten

/-- The bytes from the first empty line on. -/
def bodyPart (raw : Bytes) : Bytes :=
  ((splitKeep 10 raw).dropWhile (!isEmptyLine ·)).flatten

theorem headerPart_append_bodyPart (raw : Bytes) : headerPart raw ++ bodyPart raw = raw := by
  unfold headerPart bodyPart
  rw [← List.flatten_append, List.takeWhile_append_dropWhile, SeparatedLines.flatten_splitKeep]

/-- A run of terminated lines with no empty one among them. -/
def IsHeaderText (s : Bytes) : Prop :=
  ∃ physical : List Bytes, (∀ p ∈ physical, IsLine 10 p ∧ isEmptyLine p = false) ∧
    s = physical.flatten

theorem IsHeaderText.nil : IsHeaderText [] := ⟨[], by simp, rfl⟩

theorem IsHeaderText.append {s t : Bytes} (hs : IsHeaderText s) (ht : IsHeaderText t) :
    IsHeaderText (s ++ t) := by
  obtain ⟨first, hfirst, rfl⟩ := hs
  obtain ⟨second, hsecond, rfl⟩ := ht
  refine ⟨first ++ second, ?_, by simp⟩
  intro p hp
  rcases List.mem_append.mp hp with hp | hp
  · exact hfirst p hp
  · exact hsecond p hp

theorem IsHeaderText.flatten {texts : List Bytes} (h : ∀ t ∈ texts, IsHeaderText t) :
    IsHeaderText texts.flatten := by
  induction texts with
  | nil => exact IsHeaderText.nil
  | cons t texts ih =>
      rw [List.flatten_cons]
      exact (h t (by simp)).append (ih fun t ht => h t (by simp [ht]))

/-- The logical lines of a header text are header texts: folding joins whole
    physical lines. -/
theorem isHeaderText_of_mem_split {physical : List Bytes}
    (hlines : ∀ p ∈ physical, IsLine 10 p ∧ isEmptyLine p = false) {line : Bytes}
    (hline : IsHeaderText line) {logical : Bytes}
    (h : logical ∈ splitHeaderLines line physical.flatten) : IsHeaderText logical := by
  induction physical generalizing line with
  | nil =>
      rw [List.flatten_nil, splitHeaderLines] at h
      split at h
      · simp at h
      · rw [List.mem_singleton.mp h]
        exact hline
  | cons p physical ih =>
      have hp := hlines p (by simp)
      have hrest := fun p hp => hlines p (List.mem_cons_of_mem _ hp)
      have hjoined : IsHeaderText (line ++ p) := hline.append ⟨[p], by simpa using hp, by simp⟩
      rw [List.flatten_cons, splitHeaderLines_line hp.1] at h
      split at h
      · exact ih hrest hjoined h
      · rcases List.mem_cons.mp h with rfl | h
        · exact hjoined
        · exact ih hrest IsHeaderText.nil h

/-- **No header text can stand where an empty line stands.** -/
theorem length_le_of_append_eq {s t : Bytes} (hs : IsHeaderText s) (ht : IsHeaderText t)
    {rest rest' empty : Bytes} (hempty : isEmptyLine empty = true)
    (heq : s ++ (empty ++ rest) = t ++ rest') : t.length ≤ s.length := by
  obtain ⟨first, hfirst, rfl⟩ := hs
  obtain ⟨second, hsecond, rfl⟩ := ht
  have hline : IsLine 10 empty := by
    rcases Bool.or_eq_true_iff.mp hempty with hlf | hcrlf
    · exact ⟨[], by simp, by simpa using hlf⟩
    · exact ⟨[13], by decide, by simpa using hcrlf⟩
  have hsplit : first ++ (empty :: splitKeep 10 rest) = second ++ splitKeep 10 rest' := by
    rw [← SeparatedLines.splitKeep_line_append hline,
      ← SeparatedLines.splitKeep_flatten_append fun p hp => (hfirst p hp).1, heq,
      SeparatedLines.splitKeep_flatten_append fun p hp => (hsecond p hp).1]
  by_contra hlong
  have hcount : first.length < second.length := by
    by_contra hle
    obtain ⟨more, rfl⟩ : second <+: first :=
      List.prefix_of_prefix_length_le ⟨_, hsplit.symm⟩ ⟨_, rfl⟩ (by omega)
    rw [List.flatten_append, List.length_append] at hlong
    omega
  have hmem : empty ∈ second := by
    have hget : second[first.length]? = some empty := by
      rw [← List.getElem?_append_left hcount, ← hsplit]
      simp
    exact List.mem_of_getElem? hget
  rw [(hsecond empty hmem).2] at hempty
  exact Bool.noConfusion hempty

/-! ## Where `find_header_end` cuts -/

theorem findWindow_isPrefix {window raw : Bytes} {pos : Nat}
    (h : findWindow window raw = some pos) : window <+: raw.drop pos := by
  induction raw generalizing pos with
  | nil => simp [findWindow] at h
  | cons b rest ih =>
      unfold findWindow at h
      split at h
      case isTrue hhere =>
        obtain rfl := Option.some.inj h
        exact List.isPrefixOf_iff_prefix.mp hhere
      case isFalse =>
        obtain ⟨later, hlater, rfl⟩ := Option.map_eq_some_iff.mp h
        exact ih hlater

/-- The block ends after a line ending, and an empty line follows it. -/
theorem findHeaderEnd_spec {raw : Bytes} {headerEnd : Nat}
    (h : findHeaderEnd raw = some headerEnd) :
    ∃ front empty back : Bytes, isEmptyLine empty = true ∧
      raw.take headerEnd = front ++ [10] ∧ raw.drop headerEnd = empty ++ back := by
  unfold findHeaderEnd at h
  split at h
  case h_1 pos hpos =>
    obtain rfl := Option.some.inj h
    obtain ⟨back, hback⟩ := findWindow_isPrefix hpos
    refine ⟨raw.take pos ++ [13], [13, 10], back, rfl, ?_, ?_⟩
    · rw [List.take_add, ← hback]
      simp
    · rw [← List.drop_drop, ← hback]
      rfl
  case h_2 =>
    obtain ⟨pos, hpos, rfl⟩ := Option.map_eq_some_iff.mp h
    obtain ⟨back, hback⟩ := findWindow_isPrefix hpos
    refine ⟨raw.take pos, [10], back, rfl, ?_, ?_⟩
    · rw [List.take_add, ← hback]
      rfl
    · rw [← List.drop_drop, ← hback]
      rfl

theorem exists_lines_of_terminated (front : Bytes) :
    ∃ physical : List Bytes, (∀ p ∈ physical, IsLine 10 p) ∧
      front ++ [10] = physical.flatten := by
  obtain ⟨physical, tail, hlines, htail, heq⟩ :=
    SeparatedLines.exists_lines_tail (10 : UInt8) (front ++ [10])
  rcases List.eq_nil_or_concat tail with rfl | ⟨init, last, rfl⟩
  · exact ⟨physical, hlines, by simpa using heq⟩
  · have hsplit : front ++ [10] = (physical.flatten ++ init) ++ [last] := by simpa using heq
    have hlast : last = 10 := by simpa using (List.append_inj' hsplit rfl).2.symm
    exact absurd (by simp [hlast]) htail

theorem splitKeep_empty_append {empty : Bytes} (hempty : isEmptyLine empty = true)
    (back : Bytes) : splitKeep 10 (empty ++ back) = empty :: splitKeep 10 back := by
  rcases Bool.or_eq_true_iff.mp hempty with hlf | hcrlf
  · obtain rfl : empty = [10] := by simpa using hlf
    exact SeparatedLines.splitKeep_line_append ⟨[], by simp, rfl⟩ back
  · obtain rfl : empty = [13, 10] := by simpa using hcrlf
    exact SeparatedLines.splitKeep_line_append ⟨[13], by decide, rfl⟩ back

theorem foldsInto_of_isEmptyLine {empty : Bytes} (hempty : isEmptyLine empty = true)
    (back : Bytes) : foldsInto (empty ++ back) = false := by
  rcases Bool.or_eq_true_iff.mp hempty with hlf | hcrlf
  · obtain rfl : empty = [10] := by simpa using hlf
    rfl
  · obtain rfl : empty = [13, 10] := by simpa using hcrlf
    rfl

/-- How the block that `find_header_end` cuts lies to the first empty line: the
    headers, then what the block takes of the body. -/
structure Boundary (raw : Bytes) (headerEnd : Nat) where
  headers : List Bytes
  excess : Bytes
  header_lines : ∀ p ∈ headers, IsLine 10 p ∧ isEmptyLine p = false
  headerPart_eq : headerPart raw = headers.flatten
  block_eq : raw.take headerEnd = headers.flatten ++ excess
  bodyPart_eq : bodyPart raw = excess ++ raw.drop headerEnd
  body_empty : ∃ empty back, isEmptyLine empty = true ∧ bodyPart raw = empty ++ back
  excess_fold : foldsInto excess = false

theorem exists_boundary {raw : Bytes} {headerEnd : Nat}
    (h : findHeaderEnd raw = some headerEnd) : Nonempty (Boundary raw headerEnd) := by
  obtain ⟨front, empty, back, hempty, htake, hdrop⟩ := findHeaderEnd_spec h
  obtain ⟨physical, hlines, hphysical⟩ := exists_lines_of_terminated front
  have hraw : raw = physical.flatten ++ (empty ++ back) := by
    rw [← List.take_append_drop headerEnd raw, htake, hdrop, hphysical]
  have hsplit : splitKeep 10 raw = physical ++ (empty :: splitKeep 10 back) := by
    rw [hraw, SeparatedLines.splitKeep_flatten_append hlines, splitKeep_empty_append hempty]
  have hheader : headerPart raw = (physical.takeWhile (!isEmptyLine ·)).flatten := by
    unfold headerPart
    rw [hsplit, List.takeWhile_append]
    split
    case isTrue hall =>
      have hwhole : physical.takeWhile (!isEmptyLine ·) = physical :=
        (List.takeWhile_prefix _).eq_of_length hall
      rw [hwhole, List.takeWhile_cons_of_neg (by simp [hempty]), List.append_nil]
    case isFalse => rfl
  have hblock : raw.take headerEnd = (physical.takeWhile (!isEmptyLine ·)).flatten ++
      (physical.dropWhile (!isEmptyLine ·)).flatten := by
    rw [htake, hphysical, ← List.flatten_append, List.takeWhile_append_dropWhile]
  have hbody : bodyPart raw =
      (physical.dropWhile (!isEmptyLine ·)).flatten ++ raw.drop headerEnd := by
    have hwhole : headerPart raw ++ bodyPart raw = raw.take headerEnd ++ raw.drop headerEnd := by
      rw [headerPart_append_bodyPart, List.take_append_drop]
    rw [hblock, hheader, List.append_assoc] at hwhole
    exact List.append_cancel_left hwhole
  have hfirst : (physical.dropWhile (!isEmptyLine ·)).flatten = [] ∨
      ∃ line more, isEmptyLine line = true ∧
        (physical.dropWhile (!isEmptyLine ·)).flatten = line ++ more := by
    cases hrest : physical.dropWhile (!isEmptyLine ·) with
    | nil => exact Or.inl rfl
    | cons line more =>
        have hline := List.head?_dropWhile_not (!isEmptyLine ·) physical
        rw [hrest] at hline
        exact Or.inr ⟨line, more.flatten, by simpa using hline, by simp⟩
  refine ⟨⟨physical.takeWhile (!isEmptyLine ·), _, ?_, hheader, hblock, hbody, ?_, ?_⟩⟩
  · intro p hp
    exact ⟨hlines p ((List.takeWhile_prefix _).subset hp), by simpa using List.mem_takeWhile_imp hp⟩
  · rw [hbody]
    rcases hfirst with hnil | ⟨line, more, hline, hmore⟩
    · exact ⟨empty, back, hempty, by rw [hnil, hdrop, List.nil_append]⟩
    · exact ⟨line, more ++ raw.drop headerEnd, hline, by rw [hmore, List.append_assoc]⟩
  · rcases hfirst with hnil | ⟨line, more, hline, hmore⟩
    · rw [hnil]
      rfl
    · rw [hmore]
      exact foldsInto_of_isEmptyLine hline more

/-! ## Marking -/

@[simp] theorem length_detectSmugglingSpans (covered : Nat) (lines : List Bytes) :
    (detectSmugglingSpans covered lines).length = lines.length := by
  induction lines generalizing covered with
  | nil => simp [detectSmugglingSpans]
  | cons line lines ih =>
      cases covered with
      | succ covered => simp [detectSmugglingSpans, ih]
      | zero =>
          unfold detectSmugglingSpans
          split
          · split <;> simp [ih]
          · simp [ih]

/-- A line that is left unmarked closes every encoded-word it opens. -/
theorem dangling_of_mem_unmarked {covered : Nat} {lines : List Bytes} {line : Bytes}
    (h : line ∈ unmarked lines (detectSmugglingSpans covered lines)) :
    dangling false line = false := by
  induction lines generalizing covered with
  | nil => simp at h
  | cons first lines ih =>
      cases covered with
      | succ covered =>
          rw [detectSmugglingSpans, unmarked_cons_true] at h
          exact ih h
      | zero =>
          cases hopen : dangling false first with
          | true =>
              have hmarked : ∃ covered, detectSmugglingSpans 0 (first :: lines) =
                  true :: detectSmugglingSpans covered lines := by
                rw [detectSmugglingSpans, if_pos hopen]
                split
                · exact ⟨_, rfl⟩
                · exact ⟨0, rfl⟩
              obtain ⟨covered, hmarked⟩ := hmarked
              rw [hmarked, unmarked_cons_true] at h
              exact ih h
          | false =>
              rw [detectSmugglingSpans, hopen, if_neg Bool.false_ne_true,
                unmarked_cons_false] at h
              rcases List.mem_cons.mp h with rfl | h
              · exact hopen
              · exact ih h

/-- Lines that close what they open are all left alone. -/
theorem detectSmugglingSpans_eq_false {lines : List Bytes}
    (h : ∀ line ∈ lines, dangling false line = false) :
    ∀ flag ∈ detectSmugglingSpans 0 lines, flag = false := by
  induction lines with
  | nil => simp [detectSmugglingSpans]
  | cons line lines ih =>
      rw [detectSmugglingSpans, h line (by simp), if_neg Bool.false_ne_true]
      exact List.forall_mem_cons.mpr ⟨rfl, ih fun line hline => h line (by simp [hline])⟩

def keptLines (headers : Bytes) : List Bytes :=
  unmarked (splitHeaderLines [] headers) (detectSmugglingSpans 0 (splitHeaderLines [] headers))

def droppedLines (headers : Bytes) : List Bytes :=
  marked (splitHeaderLines [] headers) (detectSmugglingSpans 0 (splitHeaderLines [] headers))

theorem scrub_of_none (libs : ContentLibs) {raw : Bytes} (h : findHeaderEnd raw = none) :
    scrubHeaderSmuggling libs raw = (raw, []) := by
  simp only [scrubHeaderSmuggling, h]

theorem scrub_fst_of_some (libs : ContentLibs) {raw : Bytes} {headerEnd : Nat}
    (h : findHeaderEnd raw = some headerEnd) :
    (scrubHeaderSmuggling libs raw).1 =
      (keptLines (raw.take headerEnd)).flatten ++ raw.drop headerEnd := by
  simp only [scrubHeaderSmuggling, h]
  rfl

theorem scrub_snd_of_some (libs : ContentLibs) {raw : Bytes} {headerEnd : Nat}
    (h : findHeaderEnd raw = some headerEnd) :
    (scrubHeaderSmuggling libs raw).2 =
      let dropped := droppedLines (raw.take headerEnd)
      let names := (dropped.filterMap (droppedName libs)).take 8
      let count := "count=" ++ toString dropped.length
      if dropped.isEmpty then []
      else
        [warningAt .parseHeaderSmugglingBlocked
          (if names.isEmpty then count else count ++ " names=[" ++ join "," names ++ "]")
          "headers"] := by
  simp only [scrubHeaderSmuggling, h]
  rfl

/-- **The scrub reaches a fixpoint.**  For every header block the logical lines
    make up the block, the kept ones stand in their order and a second pass marks
    none of them; and for every message the scrubber keeps and drops accordingly,
    with one warning that counts the dropped lines exactly when there are any. -/
theorem scrub_fixpoint :
    (∀ headers : Bytes,
      (splitHeaderLines [] headers).flatten = headers ∧
      (keptLines headers).Sublist (splitHeaderLines [] headers) ∧
      (keptLines headers).length + (droppedLines headers).length =
        (splitHeaderLines [] headers).length ∧
      ∀ flag ∈ detectSmugglingSpans 0 (keptLines headers), flag = false) ∧
    ∀ (libs : ContentLibs) (raw : Bytes),
      (findHeaderEnd raw = none → scrubHeaderSmuggling libs raw = (raw, [])) ∧
      ∀ headerEnd, findHeaderEnd raw = some headerEnd →
        (scrubHeaderSmuggling libs raw).1 =
          (keptLines (raw.take headerEnd)).flatten ++ raw.drop headerEnd ∧
        ((scrubHeaderSmuggling libs raw).2 ≠ [] ↔
          0 < (droppedLines (raw.take headerEnd)).length) ∧
        ∀ warning ∈ (scrubHeaderSmuggling libs raw).2, ∃ names : String,
          (scrubHeaderSmuggling libs raw).2 = [warning] ∧
          warning = warningAt .parseHeaderSmugglingBlocked
            ("count=" ++ toString (droppedLines (raw.take headerEnd)).length ++ names)
            "headers" := by
  refine ⟨fun headers => ⟨?_, unmarked_sublist _ _, ?_, ?_⟩, fun libs raw => ⟨?_, ?_⟩⟩
  · simpa using flatten_splitHeaderLines [] headers
  · exact length_unmarked_add_marked (length_detectSmugglingSpans 0 _).symm
  · exact detectSmugglingSpans_eq_false fun line hline => dangling_of_mem_unmarked hline
  · exact scrub_of_none libs
  · intro headerEnd hend
    refine ⟨scrub_fst_of_some libs hend, ?_, ?_⟩
    · rw [scrub_snd_of_some libs hend, List.length_pos_iff]
      dsimp only
      split
      case isTrue hnone => simp [List.isEmpty_iff.mp hnone]
      case isFalse hsome => simpa [List.isEmpty_iff] using hsome
    · intro warning hwarning
      rw [scrub_snd_of_some libs hend] at hwarning ⊢
      dsimp only at hwarning ⊢
      split at hwarning
      case isTrue => simp at hwarning
      case isFalse hsome =>
        rw [List.mem_singleton] at hwarning
        rw [if_neg hsome, hwarning]
        split
        · exact ⟨"", rfl, by rw [String.append_empty]⟩
        · exact ⟨_, rfl, by rw [String.append_assoc, String.append_assoc]⟩

/-! ## The body -/

/-- The headers before the first empty line lose some of their logical lines, and
    everything from that line on stays. -/
def KeepsBody (raw out : Bytes) : Prop :=
  ∃ kept : List Bytes, kept.Sublist (splitHeaderLines [] (headerPart raw)) ∧
    out = kept.flatten ++ bodyPart raw

/-- In the block that `find_header_end` cuts, no logical line from the first empty
    line on takes part in a smuggling span. -/
def BodyUnmarked (raw : Bytes) : Prop :=
  ∀ headerEnd, findHeaderEnd raw = some headerEnd →
    ∀ flag ∈ (detectSmugglingSpans 0 (splitHeaderLines [] (raw.take headerEnd))).drop
      (splitHeaderLines [] (headerPart raw)).length, flag = false

section Block

variable {raw : Bytes} {headerEnd : Nat}

theorem Boundary.split_block (b : Boundary raw headerEnd) :
    splitHeaderLines [] (raw.take headerEnd) =
      splitHeaderLines [] (headerPart raw) ++ splitHeaderLines [] b.excess := by
  rw [b.block_eq, b.headerPart_eq]
  exact splitHeaderLines_append (fun p hp => (b.header_lines p hp).1) b.excess_fold []
    fun _ => rfl

theorem Boundary.isHeaderText (b : Boundary raw headerEnd) {lines : List Bytes}
    (h : lines.Sublist (splitHeaderLines [] (headerPart raw))) : IsHeaderText lines.flatten := by
  refine IsHeaderText.flatten fun line hline => ?_
  have hmem := h.subset hline
  rw [b.headerPart_eq] at hmem
  exact isHeaderText_of_mem_split b.header_lines IsHeaderText.nil hmem

end Block

/-- `S: a`, an empty line and `x =?` in LF convention, a blank line in CRLF
    convention, `z`. -/
def mixedEndings : Bytes := [83, 58, 32, 97, 10, 10, 120, 32, 61, 63, 13, 10, 13, 10, 122]

end RustyImap.HeaderScrub
