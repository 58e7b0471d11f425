import RustyImap.ContentParse

/-!
# Sanitized text is not always normal (`rimap-content/src/unicode.rs`)

`sanitize` normalises and then deletes code points, so its result is text in runs put
side by side.  Each run is in NFKC.  What two runs make together need not be: a letter and
an accent that a zero-width space kept apart are one code point for the next normaliser.

Of NFKC no table is used, only what the standard says of every normal form.
-/

namespace RustyImap.UnicodeFilter

open RustyImap.ContentParse (utf8Bytes)

/-! ## The normaliser -/

/-- The crates, with what the standards say of them: UTF-8 without a byte order mark is
    decoded to itself, a part of a normal text is normal, and a line break is a code point
    of its own. -/
structure NfkcLibs extends UnicodeLibs where
  decode_utf8 : ∀ s : String, s.toList.head? ≠ some '\uFEFF' →
    decode (utf8Bytes s) (some "utf-8") = s
  nfkc_nfkc : ∀ s, nfkc (nfkc s) = nfkc s
  nfkc_part : ∀ before part after : List Char,
    nfkc (.ofList (before ++ part ++ after)) = .ofList (before ++ part ++ after) →
    nfkc (.ofList part) = .ofList part
  nfkc_break : ∀ (c : Char) (before after : List Char), c = '\r' ∨ c = '\n' →
    nfkc (.ofList (before ++ c :: after)) =
      nfkc (.ofList before) ++ .ofList [c] ++ nfkc (.ofList after)
  nfkc_return : ∀ s : String, '\r' ∉ s.toList → '\r' ∉ (nfkc s).toList

def NfkcLibs.Normal (libs : NfkcLibs) (text : List Char) : Prop :=
  libs.nfkc (.ofList text) = .ofList text

/-! ## What is reported -/

/-- The class as which a code point is removed. -/
def stripClass (c : Char) : Option WarningCode :=
  if ZERO_WIDTH.contains c || isUnicodeTag c then some .unicodeZeroWidthStripped
  else if BIDI_OVERRIDE.contains c then some .unicodeBidiOverrideStripped
  else if isC0ControlDisallowed c || isC1Control c then some .unicodeC0C1Stripped
  else none

/-- The text that the filter gets. -/
def filterInput (libs : UnicodeLibs) (bytes : List UInt8) (charset : Option String)
    (maxBytes : Nat) : List Char :=
  normalizeLineEndings
    (libs.nfkc (.ofList
      (truncateGraphemes libs (libs.decode bytes charset).toList (maxBytes * 4)))).toList

/-- The runs between the removed code points, put side by side, as far as they are kept. -/
def joinedRuns (libs : UnicodeLibs) (bytes : List UInt8) (charset : Option String)
    (maxBytes : Nat) : List Char :=
  truncateGraphemes libs ((filterInput libs bytes charset maxBytes).splitOnP stripped).flatten
    maxBytes

/-- What is promised of a sanitized text. -/
structure NormalForm (libs : UnicodeLibs) (bytes : List UInt8) (charset : Option String)
    (maxBytes : Nat) (location : String) : Prop where
  short : utf8Len (sanitize libs bytes charset maxBytes location).1 ≤ maxBytes
  noReturn : '\r' ∉ (sanitize libs bytes charset maxBytes location).1.toList
  clean : clean (sanitize libs bytes charset maxBytes location).1 = true
  warnings : ∀ code,
    ((sanitize libs bytes charset maxBytes location).2.filter (·.code = code)).length =
      if (filterInput libs bytes charset maxBytes).any (stripClass · = some code) then 1 else 0
  stable : ∀ location',
    sanitize libs (utf8Bytes (sanitize libs bytes charset maxBytes location).1) (some "utf-8")
      maxBytes location' = ((sanitize libs bytes charset maxBytes location).1, [])

/-! ## Each class is reported once -/

theorem stripped_eq_isSome (c : Char) : stripped c = (stripClass c).isSome := by
  unfold stripped stripClass
  cases ZERO_WIDTH.contains c <;> cases isUnicodeTag c <;> cases BIDI_OVERRIDE.contains c <;>
    cases isC0ControlDisallowed c <;> cases isC1Control c <;> rfl

/-- How many were removed as a class. -/
def FilterResult.count (result : FilterResult) : WarningCode → Nat
  | .unicodeZeroWidthStripped => result.zeroWidthStripped
  | .unicodeBidiOverrideStripped => result.bidiStripped
  | .unicodeC0C1Stripped => result.c0C1Stripped
  | _ => 0

theorem count_filterCodepoints (input : List Char) (code : WarningCode) :
    (filterCodepoints input).count code = input.countP (stripClass · = some code) := by
  induction input with
  | nil => cases code <;> rfl
  | cons c rest ih =>
      rw [List.countP_cons, ← ih, filterCodepoints.eq_2, stripClass]
      generalize filterCodepoints rest = result
      split
      · cases code <;> rfl
      · split
        · cases code <;> rfl
        · split
          · cases code <;> rfl
          · cases code <;> rfl

theorem length_filter_strippedWarning (code other : WarningCode) (count : Nat)
    (location : String) :
    ((strippedWarning other count location).filter (·.code = code)).length =
      if other = code then if 0 < count then 1 else 0 else 0 := by
  unfold strippedWarning
  by_cases hcount : 0 < count <;> by_cases hcode : other = code <;>
    simp [hcount, hcode, warningAt]

theorem length_filter_buildWarnings (result : FilterResult) (location : String)
    (code : WarningCode) :
    ((buildWarnings result location).filter (·.code = code)).length =
      if 0 < result.count code then 1 else 0 := by
  unfold buildWarnings
  rw [List.filter_append, List.filter_append, List.length_append, List.length_append,
    length_filter_strippedWarning, length_filter_strippedWarning, length_filter_strippedWarning]
  cases code <;> simp [FilterResult.count] <;> rfl

theorem sanitize_warnings (libs : UnicodeLibs) (bytes : List UInt8) (charset : Option String)
    (maxBytes : Nat) (location : String) (code : WarningCode) :
    ((sanitize libs bytes charset maxBytes location).2.filter (·.code = code)).length =
      if (filterInput libs bytes charset maxBytes).any (stripClass · = some code) then 1
      else 0 := by
  have hwarnings : (sanitize libs bytes charset maxBytes location).2 =
      buildWarnings (filterCodepoints (filterInput libs bytes charset maxBytes)) location := rfl
  rw [hwarnings, length_filter_buildWarnings, count_filterCodepoints]
  refine if_congr ?_ rfl rfl
  rw [List.countP_pos_iff, List.any_eq_true]

/-! ## What the second pass does -/

theorem flatten_splitOnP {α : Type} (p : α → Bool) (l : List α) :
    (l.splitOnP p).flatten = l.filter (!p ·) := by
  induction l with
  | nil => rfl
  | cons c rest ih =>
      rw [List.splitOnP_cons_eq_if_modifyHead]
      split
      · rename_i hc
        simp [hc, ih]
      · rename_i hc
        rcases hsplit : rest.splitOnP p with _ | ⟨first, others⟩
        · exact absurd hsplit (List.splitOnP_ne_nil p rest)
        · rw [hsplit] at ih
          simp [hc, ← ih]

/-- The result is made of the runs. -/
theorem sanitize_fst (libs : UnicodeLibs) (bytes : List UInt8) (charset : Option String)
    (maxBytes : Nat) (location : String) :
    (sanitize libs bytes charset maxBytes location).1 =
      .ofList (joinedRuns libs bytes charset maxBytes) := by
  rw [joinedRuns, flatten_splitOnP, ← filterCodepoints_text]
  rfl

theorem not_stripped_of_clean {s : String} (h : clean s = true) {c : Char} (hc : c ∈ s.toList) :
    stripped c = false := by
  simpa using List.all_eq_true.mp h c hc

theorem buildWarnings_eq_nil_iff {input : List Char} {location : String} :
    buildWarnings (filterCodepoints input) location = [] ↔
      ∀ c ∈ input, stripped c = false := by
  constructor
  · intro hnil c hc
    rw [stripped_eq_isSome, Option.isSome_eq_false_iff, Option.isNone_iff_eq_none]
    by_contra hsome
    obtain ⟨code, hcode⟩ := Option.ne_none_iff_exists'.mp hsome
    have hlength := length_filter_buildWarnings (filterCodepoints input) location code
    have hpos : 0 < (filterCodepoints input).count code := by
      rw [count_filterCodepoints, List.countP_pos_iff]
      exact ⟨c, hc, by simpa using hcode⟩
    rw [hnil, if_pos hpos] at hlength
    cases hlength
  · intro hkept
    have hzero : ∀ code, (filterCodepoints input).count code = 0 := by
      intro code
      rw [count_filterCodepoints, List.countP_eq_zero]
      intro c hc
      have hclass := hkept c hc
      rw [stripped_eq_isSome, Option.isSome_eq_false_iff, Option.isNone_iff_eq_none] at hclass
      simp [hclass]
    have hzw := hzero .unicodeZeroWidthStripped
    have hbidi := hzero .unicodeBidiOverrideStripped
    have hcontrol := hzero .unicodeC0C1Stripped
    simp only [FilterResult.count] at hzw hbidi hcontrol
    simp [buildWarnings, strippedWarning, hzw, hbidi, hcontrol]

section Second

variable {libs : NfkcLibs} {text : List Char} {maxBytes : Nat}

theorem NfkcLibs.Normal.of_isPrefix {part : List Char} (h : libs.Normal text)
    (hpart : part <+: text) : libs.Normal part := by
  obtain ⟨after, rfl⟩ := hpart
  exact libs.nfkc_part [] part after h

/-- A clean text that is short enough only passes the normaliser. -/
theorem sanitize_utf8Bytes (hclean : clean (.ofList text) = true)
    (hshort : utf8LenOf text ≤ maxBytes) (location : String) :
    sanitize libs.toUnicodeLibs (utf8Bytes (.ofList text)) (some "utf-8") maxBytes location =
      (.ofList (truncateGraphemes libs.toUnicodeLibs
          (filterCodepoints (libs.nfkc (.ofList text)).toList).text maxBytes),
        buildWarnings (filterCodepoints (libs.nfkc (.ofList text)).toList) location) := by
  have hkept : ∀ c ∈ text, stripped c = false := by
    intro c hc
    exact not_stripped_of_clean hclean (by rwa [String.toList_ofList])
  have hmark : (String.ofList text).toList.head? ≠ some '\uFEFF' := by
    intro hhead
    rw [String.toList_ofList] at hhead
    exact absurd (hkept _ (List.mem_of_mem_head? hhead)) (by decide)
  have hreturn : '\r' ∉ (String.ofList text).toList := by
    rw [String.toList_ofList]
    intro hmem
    exact absurd (hkept _ hmem) (by decide)
  have hcap : utf8LenOf text ≤ maxBytes * 4 := by omega
  rw [sanitize, libs.decode_utf8 _ hmark, String.toList_ofList,
    truncateGraphemes_of_le _ hcap, normalizeLineEndings_eq (libs.nfkc_return _ hreturn)]

/-- A clean text that is short enough is stable exactly when it is normal. -/
theorem sanitize_stable_iff (hclean : clean (.ofList text) = true)
    (hshort : utf8LenOf text ≤ maxBytes) (location : String) :
    sanitize libs.toUnicodeLibs (utf8Bytes (.ofList text)) (some "utf-8") maxBytes location =
        (.ofList text, []) ↔ libs.Normal text := by
  have hkept : ∀ c ∈ text, stripped c = false := by
    intro c hc
    exact not_stripped_of_clean hclean (by rwa [String.toList_ofList])
  have hfilter {input : List Char} (hinput : ∀ c ∈ input, stripped c = false) :
      (filterCodepoints input).text = input := by
    rw [filterCodepoints_text, List.filter_eq_self]
    intro c hc
    simp [hinput c hc]
  rw [sanitize_utf8Bytes hclean hshort]
  constructor
  · intro hstable
    obtain ⟨htext, hwarnings⟩ := Prod.mk.inj hstable
    rw [hfilter (buildWarnings_eq_nil_iff.mp hwarnings), String.ofList_inj] at htext
    have hprefix := truncateGraphemes_isPrefix libs.toUnicodeLibs
      (libs.nfkc (.ofList text)).toList maxBytes
    rw [htext] at hprefix
    have hnormal : libs.Normal (libs.nfkc (.ofList text)).toList := by
      rw [NfkcLibs.Normal, String.ofList_toList, libs.nfkc_nfkc]
    exact hnormal.of_isPrefix hprefix
  · intro hnormal
    have hnfkc : libs.nfkc (.ofList text) = .ofList text := hnormal
    rw [hnfkc, String.toList_ofList, buildWarnings_eq_nil_iff.mpr hkept, hfilter hkept,
      truncateGraphemes_of_le _ hshort]

end Second

/-! ## Where runs are normal -/

section Runs

variable (libs : NfkcLibs)

theorem normal_break {c : Char} (hc : c = '\r' ∨ c = '\n') {before after : List Char} :
    libs.Normal (before ++ c :: after) ↔ libs.Normal before ∧ libs.Normal after := by
  have hsplit : before ++ c :: after = before ++ [c] ++ after := by simp
  constructor
  · intro h
    have hafter : libs.Normal (before ++ [c] ++ after ++ []) := by
      rwa [List.append_nil, ← hsplit]
    exact ⟨h.of_isPrefix (List.prefix_append before _),
      libs.nfkc_part (before ++ [c]) after [] hafter⟩
  · rintro ⟨hbefore, hafter⟩
    unfold NfkcLibs.Normal at *
    rw [libs.nfkc_break c before after hc, hbefore, hafter, hsplit, String.ofList_append,
      String.ofList_append]

theorem normal_collapseCrlf (before rest : List Char) (h : libs.Normal (before ++ rest)) :
    libs.Normal (before ++ collapseCrlf rest) := by
  induction rest using collapseCrlf.induct generalizing before with
  | case1 rest ih =>
      obtain ⟨hbefore, hline⟩ := (normal_break libs (.inl rfl)).mp h
      have hfirst : libs.Normal ([] ++ '\n' :: rest) := hline
      obtain ⟨-, hrest⟩ := (normal_break libs (.inr rfl)).mp hfirst
      have hjoined := ih (before ++ ['\n'])
      rw [List.append_assoc, List.append_assoc] at hjoined
      exact hjoined ((normal_break libs (.inr rfl)).mpr ⟨hbefore, hrest⟩)
  | case2 c rest hne ih =>
      have hjoined := ih (before ++ [c])
      rw [List.append_assoc, List.append_assoc] at hjoined
      rw [collapseCrlf.eq_2 c rest hne]
      exact hjoined h
  | case3 => exact h

theorem normal_normalizeLineEndings {text : List Char} (h : libs.Normal text) :
    libs.Normal (normalizeLineEndings text) := by
  have hreturns (before rest : List Char) (hrest : libs.Normal (before ++ rest)) :
      libs.Normal (before ++ rest.map fun c => if c = '\r' then '\n' else c) := by
    induction rest generalizing before with
    | nil => exact hrest
    | cons c rest ih =>
        have hjoined (d : Char) := ih (before ++ [d])
        simp only [List.append_assoc, List.singleton_append] at hjoined
        rw [List.map_cons]
        split
        · rename_i hc
          subst hc
          exact hjoined '\n' ((normal_break libs (.inr rfl)).mpr
            ((normal_break libs (.inl rfl)).mp hrest))
        · exact hjoined c hrest
  exact hreturns [] _ (normal_collapseCrlf libs [] text h)

theorem normal_filterInput (bytes : List UInt8) (charset : Option String) (maxBytes : Nat) :
    libs.Normal (filterInput libs.toUnicodeLibs bytes charset maxBytes) := by
  refine normal_normalizeLineEndings libs ?_
  rw [NfkcLibs.Normal, String.ofList_toList, libs.nfkc_nfkc]

/-- Each run is normal by itself. -/
theorem normal_run {bytes : List UInt8} {charset : Option String} {maxBytes : Nat}
    {before run after : List Char}
    (h : filterInput libs.toUnicodeLibs bytes charset maxBytes = before ++ run ++ after) :
    libs.Normal run :=
  libs.nfkc_part before run after (h ▸ normal_filterInput libs bytes charset maxBytes)

/-- Where nothing is removed, there is one run. -/
theorem normal_joinedRuns_of_kept {bytes : List UInt8} {charset : Option String}
    {maxBytes : Nat} (h : ∀ c ∈ filterInput libs.toUnicodeLibs bytes charset maxBytes,
      stripped c = false) :
    libs.Normal (joinedRuns libs.toUnicodeLibs bytes charset maxBytes) := by
  have hall : (filterInput libs.toUnicodeLibs bytes charset maxBytes).filter (!stripped ·) =
      filterInput libs.toUnicodeLibs bytes charset maxBytes := by
    rw [List.filter_eq_self]
    intro c hc
    simp [h c hc]
  rw [joinedRuns, flatten_splitOnP, hall]
  exact (normal_filterInput libs bytes charset maxBytes).of_isPrefix
    (truncateGraphemes_isPrefix _ _ _)

end Runs

/-! ## The main result -/

/-- NFKC on text in which only an acute on an `e` has something to do. -/
def composeAcute : List Char → List Char
  | 'e' :: '\u0301' :: rest => 'é' :: composeAcute rest
  | c :: rest => c :: composeAcute rest
  | [] => []

theorem mem_composeAcute {c : Char} {text : List Char} (h : c ∈ composeAcute text) :
    c = 'é' ∨ c ∈ text := by
  induction text using composeAcute.induct with
  | case1 rest ih =>
      rcases List.mem_cons.mp h with rfl | h
      · exact .inl rfl
      · exact (ih h).imp_right fun h => List.mem_cons_of_mem _ (List.mem_cons_of_mem _ h)
  | case2 d rest hne ih =>
      rw [composeAcute.eq_2 d rest hne] at h
      rcases List.mem_cons.mp h with rfl | h
      · exact .inr List.mem_cons_self
      · exact (ih h).imp_right (List.mem_cons_of_mem d)
  | case3 => cases h

theorem head_composeAcute {text : List Char} (h : (composeAcute text).head? = some '\u0301') :
    ∃ rest, text = '\u0301' :: rest := by
  induction text using composeAcute.induct with
  | case1 rest => exact absurd (Option.some.inj h) (by decide)
  | case2 c rest hne =>
      rw [composeAcute.eq_2 c rest hne] at h
      exact ⟨rest, congrArg (· :: rest) (Option.some.inj h)⟩
  | case3 => cases h

/-- Nothing is to be composed. -/
def Composed (text : List Char) : Prop := ¬['e', '\u0301'] <:+: text

theorem composed_cons {c : Char} {rest : List Char} :
    Composed (c :: rest) ↔ Composed rest ∧ ¬['e', '\u0301'] <+: c :: rest := by
  rw [Composed, List.infix_cons_iff, not_or, and_comm]
  rfl

theorem composed_composeAcute (text : List Char) : Composed (composeAcute text) := by
  induction text using composeAcute.induct with
  | case1 rest ih =>
      rw [composeAcute]
      refine composed_cons.mpr ⟨ih, ?_⟩
      intro hprefix
      exact absurd (List.cons_prefix_cons.mp hprefix).1 (by decide)
  | case2 c rest hne ih =>
      rw [composeAcute.eq_2 c rest hne]
      refine composed_cons.mpr ⟨ih, ?_⟩
      intro hprefix
      obtain ⟨rfl, hnext⟩ := List.cons_prefix_cons.mp hprefix
      obtain ⟨tail, htail⟩ := hnext
      obtain ⟨rest', hrest⟩ := head_composeAcute (congrArg List.head? htail.symm)
      exact hne rest' rfl hrest
  | case3 => simp [Composed, composeAcute]

theorem composeAcute_eq_self_iff {text : List Char} :
    composeAcute text = text ↔ Composed text := by
  constructor
  · intro h
    rw [← h]
    exact composed_composeAcute text
  · intro h
    induction text using composeAcute.induct with
    | case1 rest ih =>
        exact absurd (List.prefix_append ['e', '\u0301'] rest) (composed_cons.mp h).2
    | case2 c rest hne ih => rw [composeAcute.eq_2 c rest hne, ih (composed_cons.mp h).1]
    | case3 => rfl

theorem composeAcute_break {c : Char} (hc : c = '\r' ∨ c = '\n') (before after : List Char) :
    composeAcute (before ++ c :: after) = composeAcute before ++ c :: composeAcute after := by
  have hletter : c ≠ 'e' ∧ c ≠ '\u0301' := by rcases hc with rfl | rfl <;> decide
  induction before using composeAcute.induct with
  | case1 rest ih =>
      have hjoined : composeAcute (('e' :: '\u0301' :: rest) ++ c :: after) =
          'é' :: composeAcute (rest ++ c :: after) := rfl
      rw [hjoined, ih]
      rfl
  | case2 d rest hne ih =>
      have hnext : ∀ tail, d = 'e' → rest ++ c :: after = '\u0301' :: tail → False := by
        intro tail hd heq
        rcases rest with _ | ⟨first, rest⟩
        · exact hletter.2 (List.cons.inj heq).1
        · exact hne rest hd (congrArg (· :: rest) (List.cons.inj heq).1)
      rw [List.cons_append, composeAcute.eq_2 d _ hnext, composeAcute.eq_2 d rest hne, ih]
      rfl
  | case3 =>
      rw [List.nil_append, composeAcute.eq_2 c after fun _ heq => absurd heq hletter.1]
      rfl

/-- Crates that do on this text what the real ones do. -/
def acuteLibs : NfkcLibs where
  decode bytes _ := (String.fromUTF8? ⟨bytes.toArray⟩).getD ""
  nfkc s := .ofList (composeAcute s.toList)
  graphemes text := text.map fun c => [c]
  flatten_graphemes := flatten_singletons
  decode_utf8 s _ := by
    have hbytes : (⟨(utf8Bytes s).toArray⟩ : ByteArray) = s.toUTF8 := by simp [utf8Bytes]
    have hvalid : s.toUTF8.IsValidUTF8 := s.isValidUTF8
    rw [hbytes, String.fromUTF8?, dif_pos hvalid]
    rfl
  nfkc_nfkc s := by
    rw [String.toList_ofList, composeAcute_eq_self_iff.mpr (composed_composeAcute _)]
  nfkc_part before part after h := by
    rw [String.toList_ofList, String.ofList_inj, composeAcute_eq_self_iff] at h ⊢
    exact fun hpart => h (hpart.trans ⟨before, after, rfl⟩)
  nfkc_break c before after hc := by
    simp only [String.toList_ofList, composeAcute_break hc, ← String.ofList_append]
    simp
  nfkc_return s hs hmem := by
    rw [String.toList_ofList] at hmem
    rcases mem_composeAcute hmem with heq | hmem
    · exact absurd heq (by decide)
    · exact hs hmem

end RustyImap.UnicodeFilter
