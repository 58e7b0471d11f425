import RustyImap.ToolRefinement

/-!
# The Unicode pipeline

`rimap-content/src/unicode.rs`: `sanitize` decodes, normalises, filters and
truncates; `filter_codepoints` is the one step that removes code points.  A string
is **clean** when it has none of those.

`encoding_rs`, `unicode_normalization` and `unicode_segmentation` are parameters;
of the last one only that clusters make up the text is used.
-/

namespace RustyImap.UnicodeFilter

/-! ## Warnings -/

inductive WarningCode where
  | unicodeZeroWidthStripped
  | unicodeBidiOverrideStripped
  | unicodeC0C1Stripped
  | parseHeaderSmugglingBlocked
  | parseBodyTruncated
  | parseMimeTypeMismatch
  | parseAttachmentPolyglot
  | parseAttachmentFilenameRewritten
  | htmlHiddenContentDetected
  | htmlLinkTextHrefMismatch
  | htmlAnchorUnparsableHref
  | htmlScriptStripped
  | htmlStyleStripped
  | htmlRemoteImageStripped
  | lookalikeMixedScript
  | lookalikeHomographDomain
  | lookalikeIdnPunycode
  | lookalikeFilenameExtensionSpoof
deriving DecidableEq, Repr

structure SecurityWarning where
  code : WarningCode
  detail : Option String
  location : Option String
deriving DecidableEq, Repr

/-- `SecurityWarning::at`. -/
def warningAt (code : WarningCode) (detail location : String) : SecurityWarning :=
  ⟨code, some detail, some location⟩

/-! ## The code points that are removed -/

def ZERO_WIDTH : List Char := ['\u200B', '\u200C', '\u200D', '\u2060', '\uFEFF']

def BIDI_OVERRIDE : List Char :=
  ['\u202A', '\u202B', '\u202C', '\u202D', '\u202E', '\u2066', '\u2067', '\u2068', '\u2069']

def isUnicodeTag (c : Char) : Bool := 0xE0000 ≤ c.toNat && c.toNat ≤ 0xE007F

def isC0ControlDisallowed (c : Char) : Bool := c.toNat ≤ 0x1F && c != '\t' && c != '\n'

def isC1Control (c : Char) : Bool := 0x80 ≤ c.toNat && c.toNat ≤ 0x9F

structure FilterResult where
  text : List Char
  zeroWidthStripped : Nat
  bidiStripped : Nat
  c0C1Stripped : Nat
deriving DecidableEq, Repr

def filterCodepoints : List Char → FilterResult
  | [] => ⟨[], 0, 0, 0⟩
  | c :: rest =>
      let result := filterCodepoints rest
      if ZERO_WIDTH.contains c || isUnicodeTag c then
        { result with zeroWidthStripped := result.zeroWidthStripped + 1 }
      else if BIDI_OVERRIDE.contains c then
        { result with bidiStripped := result.bidiStripped + 1 }
      else if isC0ControlDisallowed c || isC1Control c then
        { result with c0C1Stripped := result.c0C1Stripped + 1 }
      else { result with text := c :: result.text }

/-- The code points that `filter_codepoints` removes. -/
def stripped (c : Char) : Bool :=
  ZERO_WIDTH.contains c || isUnicodeTag c || BIDI_OVERRIDE.contains c ||
    isC0ControlDisallowed c || isC1Control c

def clean (s : String) : Bool := s.toList.all fun c => !stripped c

/-! ## The pipeline -/

/-- The crates that `unicode.rs` calls. -/
structure UnicodeLibs where
  decode : List UInt8 → Option String → String
  nfkc : String → String
  graphemes : List Char → List (List Char)
  flatten_graphemes : ∀ text, (graphemes text).flatten = text

/-- Text without combining marks, one cluster for each character. -/
theorem flatten_singletons (text : List Char) : (text.map fun c => [c]).flatten = text := by
  induction text with
  | nil => rfl
  | cons c rest ih => exact congrArg (c :: ·) ih

def collapseCrlf : List Char → List Char
  | '\r' :: '\n' :: rest => '\n' :: collapseCrlf rest
  | c :: rest => c :: collapseCrlf rest
  | [] => []

def normalizeLineEndings (input : List Char) : List Char :=
  (collapseCrlf input).map fun c => if c = '\r' then '\n' else c

def utf8LenOf (text : List Char) : Nat := text.foldl (fun n c => n + c.utf8Size) 0

/-- The clusters that fit, `used` bytes being taken. -/
def fitting (maxBytes : Nat) : Nat → List (List Char) → List Char
  | _, [] => []
  | used, cluster :: rest =>
      if maxBytes < used + utf8LenOf cluster then []
      else cluster ++ fitting maxBytes (used + utf8LenOf cluster) rest

/-- `truncate_graphemes`: `input[..grapheme_cut(input, max_bytes)]`. -/
def truncateGraphemes (libs : UnicodeLibs) (input : List Char) (maxBytes : Nat) : List Char :=
  if utf8LenOf input ≤ maxBytes then input else fitting maxBytes 0 (libs.graphemes input)

/-- One warning for a class of which something was removed. -/
def strippedWarning (code : WarningCode) (count : Nat) (location : String) :
    List SecurityWarning :=
  if 0 < count then [warningAt code ("count=" ++ toString count) location] else []

def buildWarnings (result : FilterResult) (location : String) : List SecurityWarning :=
  strippedWarning .unicodeZeroWidthStripped result.zeroWidthStripped location ++
    strippedWarning .unicodeBidiOverrideStripped result.bidiStripped location ++
    strippedWarning .unicodeC0C1Stripped result.c0C1Stripped location

def sanitize (libs : UnicodeLibs) (bytes : List UInt8) (charsetLabel : Option String)
    (maxBytes : Nat) (location : String) : String × List SecurityWarning :=
  let decoded := libs.decode bytes charsetLabel
  let preCapped := truncateGraphemes libs decoded.toList (maxBytes * 4)
  let normalized := libs.nfkc (String.ofList preCapped)
  let filterResult := filterCodepoints (normalizeLineEndings normalized.toList)
  (String.ofList (truncateGraphemes libs filterResult.text maxBytes),
    buildWarnings filterResult location)

/-! ## Clean strings -/

@[simp] theorem clean_append (a b : String) : clean (a ++ b) = (clean a && clean b) := by
  simp [clean, String.toList_append]

@[simp] theorem clean_empty : clean "" = true := rfl

theorem clean_ofList {l : List Char} : clean (String.ofList l) = l.all fun c => !stripped c := by
  simp [clean]

/-- A string whose characters are those of a clean one is clean. -/
theorem clean_of_subset {l : List Char} {s : String} (hs : clean s = true)
    (hsub : ∀ c ∈ l, c ∈ s.toList) : clean (String.ofList l) = true := by
  rw [clean_ofList, List.all_eq_true]
  intro c hc
  exact List.all_eq_true.mp hs c (hsub c hc)

theorem contains_of_ascii {table : List Char} (htable : (table.all fun d => 0x80 ≤ d.toNat) = true)
    {c : Char} (hc : c.toNat < 0x80) : table.contains c = false := by
  rw [Bool.eq_false_iff]
  intro hmem
  have hlarge := List.all_eq_true.mp htable c (by simpa using hmem)
  simp only [decide_eq_true_eq] at hlarge
  omega

/-- Of ASCII, only control characters are removed. -/
theorem stripped_of_ascii {c : Char} (hlow : 0x20 ≤ c.toNat) (hhigh : c.toNat < 0x80) :
    stripped c = false := by
  have hzero : ZERO_WIDTH.contains c = false := contains_of_ascii (by decide) hhigh
  have hbidi : BIDI_OVERRIDE.contains c = false := contains_of_ascii (by decide) hhigh
  have htag : isUnicodeTag c = false := by
    simp only [isUnicodeTag, Bool.and_eq_false_iff, decide_eq_false_iff_not]
    omega
  have hc0 : isC0ControlDisallowed c = false := by
    have hlarge : ¬ c.toNat ≤ 0x1F := by omega
    simp [isC0ControlDisallowed, hlarge]
  have hc1 : isC1Control c = false := by
    simp only [isC1Control, Bool.and_eq_false_iff, decide_eq_false_iff_not]
    omega
  simp only [stripped, hzero, hbidi, htag, hc0, hc1, Bool.or_self]

theorem toDigits_ascii {b n : Nat} (hb : 1 < b) (hb16 : b ≤ 16) :
    ∀ c ∈ Nat.toDigits b n, 0x20 ≤ c.toNat ∧ c.toNat < 0x80 := by
  have hdigit : ∀ d, d < 16 → 0x20 ≤ (Nat.digitChar d).toNat ∧ (Nat.digitChar d).toNat < 0x80 := by
    decide
  induction n using Nat.strongRecOn with
  | ind n ih =>
      rw [Nat.toDigits_eq_if hb]
      split
      · intro c hc
        rw [List.mem_singleton.mp hc]
        exact hdigit n (by omega)
      · intro c hc
        have hlt : n / b < n := Nat.div_lt_self (by omega) hb
        rcases List.mem_append.mp hc with hc | hc
        · exact ih (n / b) hlt c hc
        · rw [List.mem_singleton.mp hc]
          exact hdigit (n % b) (lt_of_lt_of_le (Nat.mod_lt _ (by omega)) hb16)

@[simp] theorem clean_repr (n : Nat) : clean n.repr = true := by
  rw [Nat.repr_eq_ofList_toDigits, clean_ofList, List.all_eq_true]
  intro c hc
  obtain ⟨hlow, hhigh⟩ := toDigits_ascii (by decide) (by decide) c hc
  rw [stripped_of_ascii hlow hhigh]
  rfl

/-- The text that is left. -/
theorem filterCodepoints_text (input : List Char) :
    (filterCodepoints input).text = input.filter fun c => !stripped c := by
  induction input with
  | nil => rfl
  | cons c rest ih =>
      unfold filterCodepoints
      dsimp only
      rw [List.filter_cons]
      split
      · rename_i hzero
        have hc : stripped c = true := by simp only [stripped, hzero, Bool.true_or]
        rw [hc]
        exact ih
      · rename_i hzero
        split
        · rename_i hbidi
          have hc : stripped c = true := by
            simp only [stripped, hbidi, Bool.or_true, Bool.true_or]
          rw [hc]
          exact ih
        · rename_i hbidi
          split
          · rename_i hcontrol
            have hc : stripped c = true := by
              rcases (Bool.or_eq_true _ _).mp hcontrol with h | h <;>
                simp only [stripped, h, Bool.or_true, Bool.true_or]
            rw [hc]
            exact ih
          · rename_i hcontrol
            have hc : stripped c = false := by
              simp only [Bool.not_eq_true, Bool.or_eq_false_iff] at hzero hbidi hcontrol
              simp only [stripped, hzero, hbidi, hcontrol, Bool.or_self]
            rw [hc]
            exact congrArg (c :: ·) ih

theorem clean_filterCodepoints (input : List Char) :
    (filterCodepoints input).text.all (fun c => !stripped c) = true := by
  rw [filterCodepoints_text, List.all_eq_true]
  intro c hc
  exact (List.mem_filter.mp hc).2

theorem mem_fitting {maxBytes used : Nat} {clusters : List (List Char)} {c : Char}
    (h : c ∈ fitting maxBytes used clusters) : c ∈ clusters.flatten := by
  induction clusters generalizing used with
  | nil => cases h
  | cons cluster rest ih =>
      unfold fitting at h
      split at h
      · cases h
      · rcases List.mem_append.mp h with h | h
        · exact List.mem_append_left _ h
        · exact List.mem_append_right _ (ih h)

/-- Truncation adds nothing. -/
theorem mem_truncateGraphemes {libs : UnicodeLibs} {input : List Char} {maxBytes : Nat} {c : Char}
    (h : c ∈ truncateGraphemes libs input maxBytes) : c ∈ input := by
  unfold truncateGraphemes at h
  split at h
  · exact h
  · rw [← libs.flatten_graphemes input]
    exact mem_fitting h

/-- **What has passed the pipeline is clean**, whatever came in. -/
theorem clean_sanitize (libs : UnicodeLibs) (bytes : List UInt8) (charset : Option String)
    (maxBytes : Nat) (location : String) :
    clean (sanitize libs bytes charset maxBytes location).1 = true := by
  unfold sanitize
  rw [clean_ofList, List.all_eq_true]
  intro c hc
  exact List.all_eq_true.mp (clean_filterCodepoints _) c (mem_truncateGraphemes hc)

/-! ## Line endings -/

theorem normalizeLineEndings_eq {input : List Char} (h : '\r' ∉ input) :
    normalizeLineEndings input = input := by
  have hcollapse : collapseCrlf input = input := by
    induction input with
    | nil => rfl
    | cons c rest ih =>
        rw [List.mem_cons, not_or] at h
        have hc : c ≠ '\r' := fun heq => h.1 heq.symm
        unfold collapseCrlf
        split
        · rename_i heq
          exact absurd (List.cons.inj heq).1 hc
        · rename_i heq
          obtain ⟨rfl, rfl⟩ := List.cons.inj heq
          rw [ih h.2]
        · rename_i heq
          cases heq
  rw [normalizeLineEndings, hcollapse]
  conv_rhs => rw [← List.map_id input]
  apply List.map_congr_left
  rintro c hc
  refine if_neg ?_
  rintro rfl
  exact h hc

/-! ## Truncation -/

theorem foldl_utf8Size (text : List Char) (n : Nat) :
    text.foldl (fun n c => n + c.utf8Size) n = n + utf8LenOf text := by
  induction text generalizing n with
  | nil => rfl
  | cons c rest ih =>
      rw [utf8LenOf, List.foldl_cons, List.foldl_cons, ih, ih (0 + c.utf8Size), Nat.zero_add,
        Nat.add_assoc]

@[simp] theorem utf8LenOf_nil : utf8LenOf [] = 0 := rfl

@[simp] theorem utf8LenOf_cons (c : Char) (text : List Char) :
    utf8LenOf (c :: text) = c.utf8Size + utf8LenOf text := by
  rw [utf8LenOf, List.foldl_cons, foldl_utf8Size, Nat.zero_add]

@[simp] theorem utf8LenOf_append (a b : List Char) :
    utf8LenOf (a ++ b) = utf8LenOf a + utf8LenOf b := by
  rw [utf8LenOf, List.foldl_append, foldl_utf8Size]
  rfl

theorem utf8Len_eq (s : String) : utf8Len s = utf8LenOf s.toList := by
  unfold utf8Len
  induction s.toList with
  | nil => rfl
  | cons c rest ih => rw [List.map_cons, List.sum_cons, ih, utf8LenOf_cons]

theorem utf8Len_ofList (text : List Char) : utf8Len (.ofList text) = utf8LenOf text := by
  rw [utf8Len_eq, String.toList_ofList]

theorem utf8LenOf_fitting_le {maxBytes used : Nat} (hused : used ≤ maxBytes)
    (clusters : List (List Char)) :
    used + utf8LenOf (fitting maxBytes used clusters) ≤ maxBytes := by
  induction clusters generalizing used with
  | nil => exact hused
  | cons cluster rest ih =>
      unfold fitting
      split
      · exact hused
      · rename_i hfits
        have hle := ih (Nat.not_lt.mp hfits)
        rw [utf8LenOf_append]
        omega

theorem fitting_isPrefix (maxBytes used : Nat) (clusters : List (List Char)) :
    fitting maxBytes used clusters <+: clusters.flatten := by
  induction clusters generalizing used with
  | nil => exact List.nil_prefix
  | cons cluster rest ih =>
      unfold fitting
      split
      · exact List.nil_prefix
      · rw [List.flatten_cons]
        exact (List.prefix_append_right_inj cluster).mpr (ih _)

section

variable (libs : UnicodeLibs)

theorem utf8LenOf_truncateGraphemes_le (input : List Char) (maxBytes : Nat) :
    utf8LenOf (truncateGraphemes libs input maxBytes) ≤ maxBytes := by
  unfold truncateGraphemes
  split
  · assumption
  · simpa using utf8LenOf_fitting_le (Nat.zero_le maxBytes) (libs.graphemes input)

theorem truncateGraphemes_isPrefix (input : List Char) (maxBytes : Nat) :
    truncateGraphemes libs input maxBytes <+: input := by
  unfold truncateGraphemes
  split
  · exact List.prefix_rfl
  · have hfits := fitting_isPrefix maxBytes 0 (libs.graphemes input)
    rwa [libs.flatten_graphemes] at hfits

theorem truncateGraphemes_of_le {input : List Char} {maxBytes : Nat}
    (h : utf8LenOf input ≤ maxBytes) : truncateGraphemes libs input maxBytes = input :=
  if_pos h

/-- Nothing is cut off exactly when everything fits. -/
theorem truncateGraphemes_eq_self_iff {input : List Char} {maxBytes : Nat} :
    truncateGraphemes libs input maxBytes = input ↔ utf8LenOf input ≤ maxBytes := by
  refine ⟨fun h => ?_, truncateGraphemes_of_le libs⟩
  have hle := utf8LenOf_truncateGraphemes_le libs input maxBytes
  rwa [h] at hle

/-- The text of which `sanitize` gives as much as fits: nothing is cut off before the
    normaliser or after the filter. -/
def completeText (bytes : List UInt8) (charset : Option String) : List Char :=
  (filterCodepoints (normalizeLineEndings (libs.nfkc (libs.decode bytes charset)).toList)).text

theorem sanitize_eq_completeText {bytes : List UInt8} {charset : Option String} {maxBytes : Nat}
    (h : utf8Len (libs.decode bytes charset) ≤ maxBytes * 4) (location : String) :
    (sanitize libs bytes charset maxBytes location).1 =
      .ofList (truncateGraphemes libs (completeText libs bytes charset) maxBytes) := by
  rw [utf8Len_eq] at h
  rw [sanitize, truncateGraphemes_of_le libs h, String.ofList_toList]
  rfl

/-- The bytes after which the normaliser does not get to see the rest cut nothing off. -/
theorem sanitize_eq_completeText_iff {bytes : List UInt8} {charset : Option String}
    {maxBytes : Nat} (h : utf8Len (libs.decode bytes charset) ≤ maxBytes * 4)
    (location : String) :
    (sanitize libs bytes charset maxBytes location).1 =
        .ofList (completeText libs bytes charset) ↔
      utf8LenOf (completeText libs bytes charset) ≤ maxBytes := by
  rw [sanitize_eq_completeText libs h, String.ofList_inj,
    truncateGraphemes_eq_self_iff]

end

/-! ## Clean warnings -/

/-- No detail of a warning has a code point that is removed elsewhere. -/
def cleanWarnings (warnings : List SecurityWarning) : Bool :=
  warnings.all fun w => clean (w.detail.getD "")

@[simp] theorem cleanWarnings_append (a b : List SecurityWarning) :
    cleanWarnings (a ++ b) = (cleanWarnings a && cleanWarnings b) := by
  simp [cleanWarnings]

@[simp] theorem cleanWarnings_nil : cleanWarnings [] = true := rfl

@[simp] theorem cleanWarnings_cons (code : WarningCode) (detail location : String)
    (rest : List SecurityWarning) :
    cleanWarnings (warningAt code detail location :: rest) =
      (clean detail && cleanWarnings rest) := by
  simp [cleanWarnings, warningAt]

theorem cleanWarnings_flatMap {α : Type} (l : List α) (f : α → List SecurityWarning) :
    cleanWarnings (l.flatMap f) = l.all fun a => cleanWarnings (f a) := by
  induction l with
  | nil => rfl
  | cons a rest ih => simp [List.flatMap_cons, ih]

theorem cleanWarnings_strippedWarning (code : WarningCode) (count : Nat) (location : String) :
    cleanWarnings (strippedWarning code count location) = true := by
  unfold strippedWarning
  split
  · have hcount : clean "count=" = true := rfl
    simp [hcount]
  · rfl

/-- The pipeline's own warnings give counts. -/
theorem cleanWarnings_sanitize (libs : UnicodeLibs) (bytes : List UInt8)
    (charset : Option String) (maxBytes : Nat) (location : String) :
    cleanWarnings (sanitize libs bytes charset maxBytes location).2 = true := by
  simp [sanitize, buildWarnings, cleanWarnings_strippedWarning]

end RustyImap.UnicodeFilter
