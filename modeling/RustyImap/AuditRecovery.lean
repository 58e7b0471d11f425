import RustyImap.AuditLog

/-!
# Recovery from a torn tail

A crash cuts the active file at some byte.  The next boot scans it with
`read_trailing_state` and appends to it as it stands (`AuditWriter::open`, opened
with `append`); later the file goes through `stream_records`.

The cut leaves whole lines and a torn tail.  The self-check gives up on a tail
that is not UTF-8, and the first record appended after any tail continues its
line: recovery succeeds exactly where there is no tail.
-/

namespace RustyImap.AuditRecovery

open RustyImap.SeparatedLines RustyImap.AuditLog

variable {δ σ : Type} {json : SerdeJson δ}

/-! ## What a cut leaves -/

/-- The records whose lines are whole in the first `n` bytes of the log. -/
def wholeLines : List (Written json) → Nat → List (Written json)
  | [], _ => []
  | w :: log, n =>
      if w.line.length ≤ n then w :: wholeLines log (n - w.line.length) else []

/-- The bytes after the last whole line. -/
def tornTail : List (Written json) → Nat → Bytes
  | [], _ => []
  | w :: log, n =>
      if w.line.length ≤ n then tornTail log (n - w.line.length) else w.line.take n

theorem take_logBytes (log : List (Written json)) (n : Nat) :
    (logBytes log).take n = logBytes (wholeLines log n) ++ tornTail log n := by
  induction log generalizing n with
  | nil => simp [wholeLines, tornTail]
  | cons w log ih =>
      have hcons : logBytes (w :: log) = w.line ++ logBytes log := rfl
      by_cases hfits : w.line.length ≤ n
      · have hwhole : wholeLines (w :: log) n = w :: wholeLines log (n - w.line.length) :=
          if_pos hfits
        have htorn : tornTail (w :: log) n = tornTail log (n - w.line.length) := if_pos hfits
        rw [hcons, List.take_append, List.take_of_length_le hfits, ih, hwhole, htorn,
          ← List.append_assoc]
        rfl
      · have hwhole : wholeLines (w :: log) n = [] := if_neg hfits
        have htorn : tornTail (w :: log) n = w.line.take n := if_neg hfits
        rw [hcons, List.take_append_of_le_length (by omega), hwhole, htorn]
        rfl

theorem wholeLines_sublist (log : List (Written json)) (n : Nat) :
    (wholeLines log n).Sublist log := by
  induction log generalizing n with
  | nil => exact List.Sublist.refl _
  | cons w log ih =>
      unfold wholeLines
      split
      · exact (ih _).cons_cons w
      · exact List.nil_sublist _

/-- The tail is the beginning of some record's text, without its terminator. -/
theorem tornTail_eq_take (log : List (Written json)) (n : Nat) :
    tornTail log n = [] ∨ ∃ w ∈ log, ∃ k, tornTail log n = w.text.take k := by
  induction log generalizing n with
  | nil => exact .inl rfl
  | cons w log ih =>
      by_cases hfits : w.line.length ≤ n
      · have htorn : tornTail (w :: log) n = tornTail log (n - w.line.length) := if_pos hfits
        rw [htorn]
        rcases ih (n - w.line.length) with hnil | ⟨v, hv, k, hk⟩
        · exact .inl hnil
        · exact .inr ⟨v, List.mem_cons_of_mem w hv, k, hk⟩
      · have htorn : tornTail (w :: log) n = w.line.take n := if_neg hfits
        refine .inr ⟨w, by simp, n, ?_⟩
        have hlength : w.line.length = w.text.length + 1 := by simp [Written.line]
        rw [htorn, Written.line, List.take_append_of_le_length (by omega)]

theorem LF_notMem_tornTail (hjson : json.Lawful) (log : List (Written json)) (n : Nat) :
    LF ∉ tornTail log n := by
  rcases tornTail_eq_take log n with hnil | ⟨w, -, k, hk⟩
  · simp [hnil]
  · rw [hk]
    exact fun hmem => LF_notMem_text hjson w (List.mem_of_mem_take hmem)

/-- The file is empty or ends with a line's terminator. -/
def endsAtBoundary (file : Bytes) : Bool := file.getLast?.all (· = LF)

theorem getLast_logBytes (log : List (Written json)) : endsAtBoundary (logBytes log) := by
  rcases List.eq_nil_or_concat log with rfl | ⟨front, last, rfl⟩
  · rfl
  · simp [endsAtBoundary, logBytes, Written.line]

theorem endsAtBoundary_iff (hjson : json.Lawful) (log : List (Written json)) (n : Nat) :
    endsAtBoundary ((logBytes log).take n) ↔ tornTail log n = [] := by
  rw [take_logBytes]
  constructor
  · intro h
    by_contra hne
    have hlast := List.getLast?_eq_some_getLast hne
    rw [endsAtBoundary, List.getLast?_append_of_ne_nil _ hne, hlast] at h
    have hLF : (tornTail log n).getLast hne = LF := by simpa using h
    exact LF_notMem_tornTail hjson log n (hLF ▸ List.getLast_mem hne)
  · intro hnil
    rw [hnil, List.append_nil]
    exact getLast_logBytes _

/-! ## The self-check on a cut file -/

/-- What the scan has gathered belongs to one of the lines. -/
theorem absorbLog_ids {log : List (Written json)} {seq : Seq} {processId : ProcessId}
    (hseq : (TrailingState.absorbLog {} log).lastSeq = some seq)
    (hprocess : (TrailingState.absorbLog {} log).lastProcessId = some processId) :
    (seq, processId) ∈ log.map fun w => (w.record.seq, w.record.processId) := by
  induction log using List.reverseRecOn with
  | nil => cases hseq
  | append_singleton log w ih =>
      rw [TrailingState.absorbLog_concat] at hseq hprocess
      split at hseq
      · rw [if_pos ‹_›] at hprocess
        cases hseq
        cases hprocess
        simp [AuditRecord.tailEnvelope]
      · rw [if_neg ‹_›] at hprocess
        rw [List.map_append]
        exact List.mem_append_left _ (ih hseq hprocess)

/-- The number and process of the last whole line are recovered. -/
def TrailingRecovered (json : SerdeJson δ) (path : String) (log : List (Written json))
    (n : Nat) : Prop :=
  ∃ st, readTrailingState json path (some ((logBytes log).take n)) = .ok st ∧
    st.lastSeq = (wholeLines log n).getLast?.map (·.record.seq) ∧
    st.lastProcessId = (wholeLines log n).getLast?.map (·.record.processId)

/-- The caps of the self-check, as far as they matter for the last whole line. -/
def WithinCaps (log : List (Written json)) (n : Nat) : Prop :=
  ((logBytes log).take n).length ≤ MAX_SELF_CHECK_BYTES ∧
    ∀ last ∈ (wholeLines log n).getLast?, last.line.length ≤ MAX_LINE_BYTES

instance (log : List (Written json)) (n : Nat) : Decidable (WithinCaps log n) :=
  inferInstanceAs (Decidable (_ ∧ ∀ last ∈ (wholeLines log n).getLast?, _))

theorem readTrailingState_cut (hjson : json.Lawful) (path : String) (log : List (Written json))
    (n : Nat) :
    readTrailingState json path (some ((logBytes log).take n)) =
      if ((logBytes log).take n).length > MAX_SELF_CHECK_BYTES then .ok {}
      else if validUtf8 (tornTail log n) then .ok (TrailingState.absorbLog {} (wholeLines log n))
      else .error (.read path none .invalidUtf8) := by
  rw [take_logBytes]
  exact readTrailingState_torn hjson path _ _ (LF_notMem_tornTail hjson log n)

/-- A torn tail does no harm to the self-check as long as it is text. -/
theorem trailingRecovered_of_validUtf8 (hjson : json.Lawful) (path : String)
    {log : List (Written json)} {n : Nat} (hcaps : WithinCaps log n)
    (htext : validUtf8 (tornTail log n)) : TrailingRecovered json path log n := by
  obtain ⟨hsize, hline⟩ := hcaps
  have hread := readTrailingState_cut hjson path log n
  rw [if_neg (by omega), if_pos htext] at hread
  refine ⟨_, hread, ?_⟩
  rcases List.eq_nil_or_concat (wholeLines log n) with hnil | ⟨front, last, hconcat⟩
  · rw [hnil]
    exact ⟨rfl, rfl⟩
  · rw [List.concat_eq_append] at hconcat
    rw [hconcat] at hline ⊢
    rw [TrailingState.absorbLog_concat, if_pos (hline last (by simp))]
    simp [TrailingState.absorb, AuditRecord.tailEnvelope]

/-- A cut on a line boundary that the self-check recovers from is within the caps:
    beyond them it answers with another line or with nothing. -/
theorem withinCaps_of_trailingRecovered (hjson : json.Lawful) {path : String}
    {log : List (Written json)} {n : Nat}
    (hids : (log.map fun w => (w.record.seq, w.record.processId)).Nodup)
    (hboundary : tornTail log n = []) (h : TrailingRecovered json path log n) :
    WithinCaps log n := by
  obtain ⟨st, hread, hseq, hprocess⟩ := h
  rw [readTrailingState_cut hjson, hboundary] at hread
  rcases List.eq_nil_or_concat (wholeLines log n) with hnil | ⟨front, last, hconcat⟩
  · have hempty : (logBytes log).take n = [] := by
      rw [take_logBytes, hnil, hboundary]
      rfl
    refine ⟨?_, ?_⟩
    · rw [hempty]
      exact Nat.zero_le _
    · rw [hnil]
      nofun
  · rw [List.concat_eq_append] at hconcat
    rw [hconcat, List.getLast?_concat, Option.map_some] at hseq hprocess
    have hsize : ¬ ((logBytes log).take n).length > MAX_SELF_CHECK_BYTES := by
      intro hlarge
      rw [if_pos hlarge] at hread
      cases hread
      cases hseq
    rw [if_neg hsize, if_pos (by decide +kernel), hconcat] at hread
    refine ⟨by omega, ?_⟩
    rw [hconcat, List.getLast?_concat]
    rintro _ ⟨rfl⟩
    -- a last line beyond the cap would have to share its ids with an earlier one
    by_contra hlong
    rw [TrailingState.absorbLog_concat, if_neg hlong] at hread
    cases hread
    have hearlier := absorbLog_ids hseq hprocess
    have hwhole := hids.sublist ((wholeLines_sublist log n).map _)
    rw [hconcat, List.map_append, List.nodup_append] at hwhole
    exact hwhole.2.2 _ hearlier _ (by simp) rfl

/-! ## The reader on a file that was appended to -/

/-- Lines in front of a block that fails do not keep it from failing. -/
theorem streamLoop_error_append {path : String} {filter : Filter}
    {onRecord : σ → AuditRecord δ → Except AuditError σ} {tail : List Bytes}
    (h : ∀ prev n p, ∃ e, streamLoop json path filter onRecord tail prev n p = .error e)
    (lines : List Bytes) (prev : Option (Nat × Bytes)) (n : Nat) (p : Progress σ) :
    ∃ e, streamLoop json path filter onRecord (lines ++ tail) prev n p = .error e := by
  induction lines generalizing prev n p with
  | nil => exact h prev n p
  | cons line lines ih =>
      rw [List.cons_append]
      rcases streamLoop_cons json path filter onRecord line (lines ++ tail) prev n p with
        herror | ⟨p', hnext⟩
      · exact herror
      · rw [hnext]
        exact ih _ _ p'

/-- The first record after a torn tail ends the torn line. -/
theorem splitKeep_merged (hjson : json.Lawful) (log rest : List (Written json))
    (torn w : Written json) (k : Nat) :
    splitKeep LF (logBytes log ++ (torn.text.take k ++ logBytes (w :: rest))) =
      log.map Written.line ++ (torn.text.take k ++ w.line) :: rest.map Written.line := by
  have hline : IsLine LF (torn.text.take k ++ w.line) := by
    refine ⟨torn.text.take k ++ w.text, ?_, by simp [Written.line]⟩
    intro hmem
    rcases List.mem_append.mp hmem with hmem | hmem
    · exact LF_notMem_text hjson torn (List.mem_of_mem_take hmem)
    · exact LF_notMem_text hjson w hmem
  have hbytes : torn.text.take k ++ logBytes (w :: rest) =
      (torn.text.take k ++ w.line) ++ logBytes rest := by simp [logBytes]
  rw [splitKeep_logBytes_append hjson, hbytes, splitKeep_line_append hline,
    splitKeep_logBytes hjson]

/-- **The first record appended to a torn tail is lost**, and the reader does not
    say so: it skips the line as a partial one. -/
theorem streamRecords_merged_last (hjson : json.Lawful) (path : String) (filter : Filter)
    (log : List (Written json)) (torn w : Written json) {k : Nat} (hk : torn.text.take k ≠ [])
    (htext : validUtf8 (torn.text.take k)) :
    streamRecords json path filter collect []
        (logBytes log ++ (torn.text.take k ++ logBytes [w])) =
      .ok (Progress.deliver filter ⟨[], 0, 0⟩ (records log)) := by
  have hvalid := validUtf8_append htext (validUtf8_line hjson w)
  unfold streamRecords
  rw [splitKeep_merged hjson, streamLoop_log hjson, streamLoop, if_neg (by simp [hvalid])]
  simp only [bind, Except.bind, stripTerminator_line hjson]
  rw [List.map_nil, streamLoop, dispatch_merged hjson _ _ _ _ _ _ hk]
  rfl

/-- **Two records appended to a torn tail break the file**: the torn line is
    malformed and not the last. -/
theorem streamRecords_merged (hjson : json.Lawful) (path : String) (filter : Filter)
    (onRecord : σ → AuditRecord δ → Except AuditError σ) (init : σ) (log : List (Written json))
    (torn w next : Written json) {k : Nat} (hk : torn.text.take k ≠ []) :
    ∃ e, streamRecords json path filter onRecord init
      (logBytes log ++ (torn.text.take k ++ logBytes [w, next])) = .error e := by
  unfold streamRecords
  rw [splitKeep_merged hjson, List.map_singleton]
  apply streamLoop_error_append
  intro prev n p
  rcases streamLoop_cons json path filter onRecord (torn.text.take k ++ w.line) [next.line] prev n p
    with herror | ⟨p', hnext⟩
  · exact herror
  · rw [hnext, streamLoop, if_neg (by simp [validUtf8_line hjson next])]
    simp only [bind, Except.bind, stripTerminator_line hjson, dispatch_merged hjson _ _ _ _ _ _ hk]
    exact ⟨_, rfl⟩

/-! ## Recovery -/

/-- The self-check finds the last whole line, and whatever is appended, the reader
    delivers the whole lines and the appended records. -/
structure Recovers (json : SerdeJson δ) (path : String) (log : List (Written json))
    (n : Nat) : Prop where
  trailing : TrailingRecovered json path log n
  stream (filter : Filter) (appended : List (Written json)) :
    ∃ p, streamRecords json path filter collect [] ((logBytes log).take n ++ logBytes appended) =
        .ok p ∧
      ((records (wholeLines log n ++ appended)).filter filter.matches).Sublist p.seen

/-- **Recovery succeeds exactly at line boundaries**, within the caps of the
    self-check.  The log is what the writer leaves: within one process no number
    is given out twice. -/
theorem recovers_iff_endsAtBoundary (json : SerdeJson δ) (hjson : json.Lawful) (path : String)
    (log : List (Written json))
    (hids : (log.map fun w => (w.record.seq, w.record.processId)).Nodup) (n : Nat) :
    Recovers json path log n ↔
      endsAtBoundary ((logBytes log).take n) ∧ WithinCaps log n := by
  rw [endsAtBoundary_iff hjson]
  constructor
  · rintro ⟨htrailing, hstream⟩
    have hboundary : tornTail log n = [] := by
      rcases tornTail_eq_take log n with hnil | ⟨torn, -, k, hk⟩
      · exact hnil
      · by_contra hne
        rw [hk] at hne
        obtain ⟨p, hok, -⟩ := hstream {} [torn, torn]
        obtain ⟨e, herror⟩ := streamRecords_merged hjson path {} collect [] (wholeLines log n)
          torn torn torn hne
        rw [take_logBytes, hk, List.append_assoc, herror] at hok
        cases hok
    exact ⟨hboundary, withinCaps_of_trailingRecovered hjson hids hboundary htrailing⟩
  · rintro ⟨hboundary, hcaps⟩
    have htext : validUtf8 (tornTail log n) := by
      rw [hboundary]
      decide +kernel
    refine ⟨trailingRecovered_of_validUtf8 hjson path hcaps htext, ?_⟩
    intro filter appended
    have hfile : (logBytes log).take n ++ logBytes appended =
        logBytes (wholeLines log n ++ appended) := by
      rw [take_logBytes, hboundary, List.append_nil, logBytes_append]
    rw [hfile, streamRecords_logBytes hjson]
    refine ⟨_, rfl, ?_⟩
    simp [Progress.deliver]

/-- A crash between the two writes. -/
theorem recovers_between_writes :
    Recovers Sample.codec "audit.jsonl" [Sample.bootA, Sample.bootB] Sample.bootA.line.length :=
  (recovers_iff_endsAtBoundary Sample.codec Sample.codec_lawful "audit.jsonl"
    [Sample.bootA, Sample.bootB] (by decide) Sample.bootA.line.length).mpr (by decide +kernel)

/-- The first line, and the second up to the first byte of the `é` in its
    `config_path`. -/
def insideChar : Nat := Sample.bootA.line.length + 199

/-- A crash inside the second write and inside a character: the self-check fails,
    and with it the boot. -/
theorem not_recovers_inside_char :
    readTrailingState Sample.codec "audit.jsonl"
        (some ((logBytes [Sample.bootA, Sample.bootB]).take insideChar)) =
      .error (.read "audit.jsonl" none .invalidUtf8) ∧
    ¬ Recovers Sample.codec "audit.jsonl" [Sample.bootA, Sample.bootB] insideChar := by
  have hread := readTrailingState_cut Sample.codec_lawful "audit.jsonl"
    [Sample.bootA, Sample.bootB] insideChar
  rw [if_neg (by decide +kernel), if_neg (by decide +kernel)] at hread
  refine ⟨hread, ?_⟩
  rintro ⟨⟨st, hok, -⟩, -⟩
  rw [hread] at hok
  cases hok

end RustyImap.AuditRecovery
