import RustyImap.ContentParse

/-!
# Safe file names (`rimap-content/src/parse/filename.rs`)

`sanitize_filename` joins path segments, drops NUL, trims, avoids the device names of
Windows and cuts to 255 bytes, in this order.  A name that nothing of this changes is
**normal**.

Only the last step works on what the others have made: cutting can bring a dot to the
end, or leave a device name alone.
-/

namespace RustyImap.ContentParse

open RustyImap.ImapOps RustyImap.UnicodeFilter RustyImap.HtmlBody

/-! ## Normal names -/

/-- `char::is_control`. -/
def isControl (c : Char) : Bool := c.toNat < 0x20 || (0x7F ≤ c.toNat && c.toNat < 0xA0)

/-- What is before the first dot is a device name. -/
def reservedStem (name : List Char) : Bool :=
  RESERVED_WINDOWS_STEMS.contains (.ofList (upTo ['.'] (name.map toAsciiLower)))

/-- The name before it is cut. -/
def uncutName (name : String) : List Char := avoidReserved (trimName (joinSegments name).toList)

/-- What every sanitized name is. -/
structure SafeName (name : List Char) : Prop where
  nonempty : name ≠ []
  short : utf8LenOf name ≤ 255
  chars : ∀ c ∈ name, c ≠ '/' ∧ c ≠ '\\' ∧ c ≠ '\x00'
  first : ∀ c ∈ name.head?, trimsOff c = false

/-- A name with nothing to do. -/
structure NormalName (name : List Char) : Prop extends SafeName name where
  last : ∀ c ∈ name.getLast?, trimsOff c = false
  stem : reservedStem name = false

/-! ## Each step -/

theorem mem_join {sep : String} {c : Char} {l : List String} (h : c ∈ (join sep l).toList) :
    c ∈ sep.toList ∨ ∃ s ∈ l, c ∈ s.toList := by
  induction l with
  | nil => cases h
  | cons s rest ih =>
      rcases rest with _ | ⟨s', rest⟩
      · exact .inr ⟨s, List.mem_singleton_self s, h⟩
      · have hjoin : join sep (s :: s' :: rest) = s ++ sep ++ join sep (s' :: rest) := rfl
        rw [hjoin, String.toList_append, String.toList_append] at h
        rcases List.mem_append.mp h with h | h
        · rcases List.mem_append.mp h with h | h
          · exact .inr ⟨s, List.mem_cons_self, h⟩
          · exact .inl h
        · rcases ih h with h | ⟨t, ht, hc⟩
          · exact .inl h
          · exact .inr ⟨t, List.mem_cons_of_mem s ht, hc⟩

/-- No piece has a separator. -/
theorem not_sep_of_mem_splitOnP {p : Char → Bool} {l piece : List Char} {c : Char}
    (hpiece : piece ∈ l.splitOnP p) (hc : c ∈ piece) : p c = false := by
  induction l generalizing piece with
  | nil =>
      rw [List.splitOnP_nil, List.mem_singleton] at hpiece
      subst hpiece
      cases hc
  | cons d rest ih =>
      rw [List.splitOnP_cons_eq_if_modifyHead] at hpiece
      split at hpiece
      · rcases List.mem_cons.mp hpiece with rfl | hpiece
        · cases hc
        · exact ih hpiece hc
      · rename_i hd
        rcases hrest : rest.splitOnP p with _ | ⟨first, others⟩
        · exact absurd hrest (List.splitOnP_ne_nil p rest)
        · rw [hrest] at hpiece ih
          rcases List.mem_cons.mp hpiece with rfl | hpiece
          · rcases List.mem_cons.mp hc with rfl | hc
            · exact Bool.not_eq_true _ ▸ hd
            · exact ih List.mem_cons_self hc
          · exact ih (List.mem_cons_of_mem first hpiece) hc

theorem mem_joinSegments {name : String} {c : Char} (h : c ∈ (joinSegments name).toList) :
    c ≠ '/' ∧ c ≠ '\\' ∧ (c ∈ name.toList ∨ c = '_') := by
  have hunderscore : '_' ≠ '/' ∧ '_' ≠ '\\' := by decide
  rcases mem_join h with h | ⟨s, hs, hc⟩
  · obtain rfl : c = '_' := by simpa using h
    exact ⟨hunderscore.1, hunderscore.2, .inr rfl⟩
  · obtain ⟨segment, hsegment, rfl⟩ := List.mem_map.mp hs
    split at hc
    · obtain rfl : c = '_' := by simpa using hc
      exact ⟨hunderscore.1, hunderscore.2, .inr rfl⟩
    · rw [String.toList_ofList] at hc
      have hsep := not_sep_of_mem_splitOnP hsegment hc
      rw [Bool.or_eq_false_iff, beq_eq_false_iff_ne, beq_eq_false_iff_ne] at hsep
      exact ⟨hsep.1, hsep.2, .inl (SeparatedItems.mem_of_mem_splitOnP hsegment hc)⟩

theorem joinSegments_eq {name : String} (hsep : ∀ c ∈ name.toList, c ≠ '/' ∧ c ≠ '\\')
    (hdots : name.toList ≠ ['.', '.']) : joinSegments name = name := by
  have hsingle : name.toList.splitOnP (fun c => c == '/' || c == '\\') = [name.toList] :=
    List.splitOnP_eq_singleton fun c hc => by simp [hsep c hc]
  rw [joinSegments, hsingle, List.map_singleton, if_neg hdots, String.ofList_toList]
  rfl

theorem not_nul_of_mem_trimName {name : List Char} {c : Char} (h : c ∈ trimName name) :
    c ≠ '\x00' := by
  have hdropped := (List.rdropWhile_prefix _ _).subset h
  have hfilter := (List.dropWhile_suffix _).subset hdropped
  simpa using (List.mem_filter.mp hfilter).2

theorem last_trimName (name : List Char) :
    ∀ c ∈ (trimName name).getLast?, trimsOff c = false := by
  intro c hc
  have hne : trimName name ≠ [] := by
    intro hnil
    rw [hnil] at hc
    cases hc
  have hlast := List.rdropWhile_last_not _ _ hne
  rw [List.getLast?_eq_some_getLast hne] at hc
  cases hc
  exact Bool.not_eq_true _ ▸ hlast

/-- A start of a list begins as the list does. -/
theorem head?_of_isPrefix {α : Type} {a b : List α} (h : a <+: b) {x : α} (hx : x ∈ a.head?) :
    x ∈ b.head? := by
  obtain ⟨rest, rfl⟩ := h
  rw [List.head?_append]
  simp [Option.mem_def.mp hx]

theorem first_trimName (name : List Char) :
    ∀ c ∈ (trimName name).head?, trimsOff c = false := by
  intro c hc
  have hhead := head?_of_isPrefix (List.rdropWhile_prefix _ _) hc
  have hnot := List.head?_dropWhile_not trimsOff (name.filter (· != '\x00'))
  rwa [Option.mem_def.mp hhead] at hnot

theorem trimName_eq {name : List Char} (hchars : ∀ c ∈ name, c ≠ '\x00')
    (hfirst : ∀ c ∈ name.head?, trimsOff c = false)
    (hlast : ∀ c ∈ name.getLast?, trimsOff c = false) : trimName name = name := by
  have hfilter : name.filter (· != '\x00') = name :=
    List.filter_eq_self.mpr fun c hc => by simpa using hchars c hc
  have hdrop : name.dropWhile trimsOff = name := by
    rcases name with _ | ⟨c, rest⟩
    · rfl
    · exact List.dropWhile_cons_of_neg (by simp [hfirst c rfl])
  rw [trimName, hfilter, hdrop, List.rdropWhile_eq_self_iff]
  intro hne
  have hlast := hlast _ (List.getLast?_eq_some_getLast hne)
  simp [hlast]

theorem avoidReserved_eq (trimmed : List Char) :
    avoidReserved trimmed = if reservedStem trimmed then '_' :: trimmed else trimmed :=
  rfl

/-- No device name starts with an underscore. -/
theorem reservedStem_underscore (name : List Char) : reservedStem ('_' :: name) = false := by
  have hstems : (RESERVED_WINDOWS_STEMS.all fun s => s.toList.head? != some '_') = true := by
    decide
  have hstem : upTo ['.'] (('_' :: name).map toAsciiLower) =
      '_' :: upTo ['.'] (name.map toAsciiLower) := rfl
  rw [reservedStem, hstem, Bool.eq_false_iff]
  intro hmem
  have hhead := List.all_eq_true.mp hstems _ (List.contains_iff_mem.mp hmem)
  rw [String.toList_ofList] at hhead
  cases hhead

theorem reservedStem_avoidReserved (trimmed : List Char) :
    reservedStem (avoidReserved trimmed) = false := by
  rw [avoidReserved_eq]
  split
  · exact reservedStem_underscore trimmed
  · rename_i hstem
    exact Bool.not_eq_true _ ▸ hstem

/-! ## The name before it is cut -/

theorem mem_uncutName {name : String} {c : Char} (h : c ∈ uncutName name) :
    (c ≠ '/' ∧ c ≠ '\\' ∧ c ≠ '\x00') ∧ (c ∈ name.toList ∨ c = '_') := by
  rcases mem_of_mem_avoidReserved h with rfl | h
  · exact ⟨by decide, .inr rfl⟩
  · obtain ⟨hslash, hbackslash, hname⟩ := mem_joinSegments (mem_of_mem_trimName h)
    exact ⟨⟨hslash, hbackslash, not_nul_of_mem_trimName h⟩, hname⟩

theorem first_uncutName (name : String) : ∀ c ∈ (uncutName name).head?, trimsOff c = false := by
  intro c hc
  rw [uncutName, avoidReserved_eq] at hc
  split at hc
  · cases hc
    decide
  · exact first_trimName _ c hc

theorem last_uncutName (name : String) :
    ∀ c ∈ (uncutName name).getLast?, trimsOff c = false := by
  intro c hc
  rw [uncutName, avoidReserved_eq] at hc
  split at hc
  · rename_i hstem
    have hne : trimName (joinSegments name).toList ≠ [] := by
      intro hnil
      rw [hnil] at hstem
      revert hstem
      decide
    rw [List.getLast?_cons, List.getLast?_eq_some_getLast hne, Option.getD_some] at hc
    cases hc
    exact last_trimName _ _ (List.getLast?_eq_some_getLast hne)
  · exact last_trimName _ c hc

theorem sanitizeFilename_fst (libs : ContentLibs) (name : String) (idx : Nat) :
    (sanitizeFilename libs name idx).1 =
      if (truncateGraphemes libs.toUnicodeLibs (uncutName name) 255).isEmpty then
        "attachment_" ++ toString idx
      else .ofList (truncateGraphemes libs.toUnicodeLibs (uncutName name) 255) := by
  unfold sanitizeFilename
  dsimp only
  rw [uncutName]

theorem sanitizeFilename_snd (libs : ContentLibs) (name : String) (idx : Nat) :
    (sanitizeFilename libs name idx).2 = ((sanitizeFilename libs name idx).1 != name) := by
  unfold sanitizeFilename
  dsimp only

/-! ## The name that is made up -/

/-- A character of a made-up name. -/
structure Plain (c : Char) : Prop where
  ascii : c.toNat < 0x7F
  kept : trimsOff c = false
  printing : isControl c = false
  name : c ≠ '/' ∧ c ≠ '\\' ∧ c ≠ '\x00'

theorem plain_of_isDigit {c : Char} (h : c.isDigit = true) : Plain c := by
  have hne : ∀ d : Char, d.isDigit = false → c ≠ d := by
    rintro d hd rfl
    rw [h] at hd
    cases hd
  have hrange : 48 ≤ c.toNat ∧ c.toNat ≤ 57 := by
    simpa [Char.isDigit, UInt32.le_iff_toNat_le] using h
  refine ⟨by omega, ?_, ?_, hne _ (by decide), hne _ (by decide), hne _ (by decide)⟩
  · simp only [trimsOff, isAsciiWhitespace, Bool.or_eq_false_iff, beq_eq_false_iff_ne]
    exact ⟨hne _ (by decide), ⟨⟨⟨hne _ (by decide), hne _ (by decide)⟩, hne _ (by decide)⟩,
      hne _ (by decide)⟩, hne _ (by decide)⟩
  · simp only [isControl, Bool.or_eq_false_iff, Bool.and_eq_false_iff, decide_eq_false_iff_not]
    omega

theorem toList_attachment (idx : Nat) :
    ("attachment_" ++ toString idx).toList = "attachment_".toList ++ Nat.toDigits 10 idx := by
  have hdigits : (toString idx).toList = Nat.toDigits 10 idx := by
    rw [Nat.toString_eq_ofList_toDigits, String.toList_ofList]
  rw [String.toList_append, hdigits]

theorem plain_attachment (idx : Nat) :
    ∀ c ∈ ("attachment_" ++ toString idx).toList, Plain c := by
  have hletters : ("attachment_".toList.all fun c =>
      decide (c.toNat < 0x7F) && !trimsOff c && !isControl c && c != '/' && c != '\\' &&
        c != '\x00') = true := by decide
  intro c hc
  rw [toList_attachment] at hc
  rcases List.mem_append.mp hc with hc | hc
  · have hletter := List.all_eq_true.mp hletters c hc
    simp only [Bool.and_eq_true, Bool.not_eq_true', decide_eq_true_eq, bne_iff_ne] at hletter
    obtain ⟨⟨⟨⟨⟨hascii, hkept⟩, hprinting⟩, hslash⟩, hbackslash⟩, hnul⟩ := hletter
    exact ⟨hascii, hkept, hprinting, hslash, hbackslash, hnul⟩
  · exact plain_of_isDigit (Nat.isDigit_of_mem_toDigits (by decide) (by decide) hc)

theorem utf8LenOf_of_ascii {text : List Char} (h : ∀ c ∈ text, c.toNat < 0x80) :
    utf8LenOf text = text.length := by
  induction text with
  | nil => rfl
  | cons c rest ih =>
      obtain ⟨hc, hrest⟩ := List.forall_mem_cons.mp h
      have hsize : c.utf8Size = 1 := Char.utf8Size_eq_one_iff.mpr (by
        rw [UInt32.le_iff_toNat_le]
        exact Nat.le_of_lt_succ hc)
      rw [utf8LenOf_cons, hsize, ih hrest, List.length_cons, Nat.add_comm]

theorem normalName_attachment (idx : UInt64) :
    NormalName ("attachment_" ++ toString idx.toNat).toList := by
  have hplain := plain_attachment idx.toNat
  have hdigits : (Nat.toDigits 10 idx.toNat).length ≤ 20 := by
    rw [Nat.length_toDigits_le_iff (by decide) (by decide)]
    have hlt := idx.toNat_lt
    omega
  have hstems : (RESERVED_WINDOWS_STEMS.all fun s => s.toList.head? != some 'a' ||
      s.toList.tail.head? != some 't') = true := by decide
  refine ⟨⟨?_, ?_, fun c hc => (hplain c hc).name, fun c hc => ?_⟩, fun c hc => ?_, ?_⟩
  · rw [toList_attachment]
    exact List.append_ne_nil_of_left_ne_nil (by decide) _
  · rw [utf8LenOf_of_ascii fun c hc => Nat.lt_succ_of_lt (hplain c hc).ascii, toList_attachment,
      List.length_append]
    have hletters : "attachment_".toList.length = 11 := rfl
    omega
  · exact (hplain c (List.mem_of_mem_head? hc)).kept
  · exact (hplain c (List.mem_of_getLast? hc)).kept
  · rw [toList_attachment, reservedStem, Bool.eq_false_iff]
    intro hmem
    have hstem := List.all_eq_true.mp hstems _ (List.contains_iff_mem.mp hmem)
    rw [String.toList_ofList] at hstem
    cases hstem

/-! ## The main result -/

/-- A normal name stays as it is. -/
theorem sanitizeFilename_of_normalName {libs : ContentLibs} {name : String}
    (h : NormalName name.toList) (idx : Nat) : sanitizeFilename libs name idx = (name, false) := by
  have hdots : name.toList ≠ ['.', '.'] := by
    intro heq
    have hfirst := h.first
    rw [heq] at hfirst
    exact absurd (hfirst '.' rfl) (by decide)
  have hjoined : joinSegments name = name :=
    joinSegments_eq (fun c hc => ⟨(h.chars c hc).1, (h.chars c hc).2.1⟩) hdots
  have htrimmed : trimName name.toList = name.toList :=
    trimName_eq (fun c hc => (h.chars c hc).2.2) h.first h.last
  have huncut : uncutName name = name.toList := by
    rw [uncutName, hjoined, htrimmed, avoidReserved_eq, h.stem]
    rfl
  have hname : (sanitizeFilename libs name idx).1 = name := by
    rw [sanitizeFilename_fst, huncut, truncateGraphemes_of_le _ h.short,
      if_neg (by simpa using h.nonempty), String.ofList_toList]
  have hflag := sanitizeFilename_snd libs name idx
  rw [hname, bne_self_eq_false] at hflag
  exact Prod.ext hname hflag

/-- The result is the made-up name, or the start of the name that fits. -/
theorem sanitizeFilename_cases (libs : ContentLibs) (name : String) (idx : Nat) :
    (sanitizeFilename libs name idx).1 = "attachment_" ++ toString idx ∨
      ((sanitizeFilename libs name idx).1.toList =
          truncateGraphemes libs.toUnicodeLibs (uncutName name) 255 ∧
        truncateGraphemes libs.toUnicodeLibs (uncutName name) 255 ≠ []) := by
  rw [sanitizeFilename_fst]
  split
  · exact .inl rfl
  · rename_i hne
    rw [String.toList_ofList]
    exact .inr ⟨rfl, by simpa using hne⟩

theorem safeName_cut (libs : ContentLibs) (name : String)
    (hne : truncateGraphemes libs.toUnicodeLibs (uncutName name) 255 ≠ []) :
    SafeName (truncateGraphemes libs.toUnicodeLibs (uncutName name) 255) where
  nonempty := hne
  short := utf8LenOf_truncateGraphemes_le _ _ _
  chars _ hc := (mem_uncutName (mem_truncateGraphemes hc)).1
  first c hc := first_uncutName name c
    (head?_of_isPrefix (truncateGraphemes_isPrefix _ _ _) hc)

theorem safeName_sanitizeFilename (libs : ContentLibs) (name : String) (idx : UInt64) :
    SafeName (sanitizeFilename libs name idx.toNat).1.toList := by
  rcases sanitizeFilename_cases libs name idx.toNat with hname | ⟨hname, hne⟩
  · rw [hname]
    exact (normalName_attachment idx).toSafeName
  · rw [hname]
    exact safeName_cut libs name hne

/-- **What a sanitized name is.**  It is safe, and no control character in it is new.
    If nothing is cut off it is normal, and a normal name is not changed again. -/
theorem sanitizeFilename_normal (libs : ContentLibs) (name : String) (idx : UInt64) :
    SafeName (sanitizeFilename libs name idx.toNat).1.toList ∧
      (∀ c ∈ (sanitizeFilename libs name idx.toNat).1.toList,
        isControl c = true → c ∈ name.toList) ∧
      (utf8LenOf (uncutName name) ≤ 255 →
        NormalName (sanitizeFilename libs name idx.toNat).1.toList) ∧
      (NormalName (sanitizeFilename libs name idx.toNat).1.toList → ∀ idx' : UInt64,
        sanitizeFilename libs (sanitizeFilename libs name idx.toNat).1 idx'.toNat =
          ((sanitizeFilename libs name idx.toNat).1, false)) := by
  refine ⟨safeName_sanitizeFilename libs name idx, ?_, ?_,
    fun h idx' => sanitizeFilename_of_normalName h idx'.toNat⟩
  all_goals
    rcases sanitizeFilename_cases libs name idx.toNat with hname | ⟨hname, hne⟩
    all_goals rw [hname]
  · intro c hc hcontrol
    rw [(plain_attachment idx.toNat c hc).printing] at hcontrol
    cases hcontrol
  · intro c hc hcontrol
    rcases (mem_uncutName (mem_truncateGraphemes hc)).2 with hmem | rfl
    · exact hmem
    · exact absurd hcontrol (by decide)
  · exact fun _ => normalName_attachment idx
  · intro hshort
    have hsafe := safeName_cut libs name hne
    rw [truncateGraphemes_of_le _ hshort] at hsafe ⊢
    exact ⟨hsafe, last_uncutName name, reservedStem_avoidReserved _⟩

theorem normalName_of_three {a b c : Char} (hsize : utf8LenOf [a, b, c] ≤ 255)
    (hchars : ([a, b, c].all fun d => d != '/' && d != '\\' && d != '\x00') = true)
    (hfirst : trimsOff a = false) (hlast : trimsOff c = false)
    (hstem : reservedStem [a, b, c] = false) : NormalName [a, b, c] := by
  refine ⟨⟨by simp, hsize, fun d hd => ?_, fun d hd => ?_⟩, fun d hd => ?_, hstem⟩
  · have hd := List.all_eq_true.mp hchars d hd
    simpa [and_assoc] using hd
  · cases hd
    exact hfirst
  · cases hd
    exact hlast

/-- A control character that is not NUL stays, and so does white space beyond ASCII. -/
theorem sanitizeFilename_keeps :
    (¬∀ (libs : ContentLibs) (name : String) (idx : UInt64),
        ((sanitizeFilename libs name idx.toNat).1.toList.all fun c => !isControl c) = true) ∧
      ¬∀ (libs : ContentLibs) (name : String) (idx : UInt64),
        (sanitizeFilename libs name idx.toNat).1.toList.getLast? ≠ some '\u00A0' := by
  constructor
  · intro hall
    have hname : NormalName "a\x01b".toList :=
      normalName_of_three (by decide) (by decide) (by decide) (by decide) (by decide)
    have hkept := hall (htmlOnlyLibs {} [] "") "a\x01b" 0
    rw [sanitizeFilename_of_normalName hname] at hkept
    revert hkept
    decide
  · intro hall
    have hname : NormalName "ab\u00A0".toList :=
      normalName_of_three (by decide) (by decide) (by decide) (by decide) (by decide)
    have hkept := hall (htmlOnlyLibs {} [] "") "ab\u00A0" 0
    rw [sanitizeFilename_of_normalName hname] at hkept
    exact hkept rfl

end RustyImap.ContentParse
