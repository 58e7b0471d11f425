import RustyImap.HtmlBody

/-!
# Inline styles

`rimap-content/src/html/style_parse.rs`: what makes `detect_hidden` take an element for
hidden.  Some declarations decide by themselves, the others leave hints that are weighed
at the end.

The parser of floating-point numbers is a parameter.  All that is used of it is that it
takes no text with a `!` in it.
-/

namespace RustyImap.StyleParse

open RustyImap.ImapOps RustyImap.HtmlBody

/-! ## Numbers -/

/-- The values of an `f64`, the two zeros being one. -/
inductive F64 where
  | nan
  | negInf
  | finite (value : Rat)
  | posInf
deriving DecidableEq

def F64.lt : F64 → F64 → Bool
  | .finite a, .finite b => decide (a < b)
  | .negInf, .finite _ => true
  | .negInf, .posInf => true
  | .finite _, .posInf => true
  | _, _ => false

/-- `n <= f64::EPSILON`. -/
def F64.leEpsilon : F64 → Bool
  | .negInf => true
  | .finite value => decide (value ≤ 1 / 2 ^ 52)
  | .nan => false
  | .posInf => false

theorem F64.lt_trans {a b c : F64} (hab : a.lt b = true) (hbc : b.lt c = true) :
    a.lt c = true := by
  rcases a with _ | _ | a | _ <;> rcases b with _ | _ | b | _ <;> rcases c with _ | _ | c | _ <;>
    simp [F64.lt] at hab hbc ⊢
  exact hab.trans hbc

/-! ## Declarations -/

def lower (s : List Char) : List Char := s.map toAsciiLower

/-- `str::split_once` at a colon. -/
def splitColon (decl : List Char) : Option (List Char × List Char) :=
  match decl.dropWhile (· != ':') with
  | [] => none
  | _ :: val => some (decl.takeWhile (· != ':'), val)

/-- One turn of the loop of `parse_inline_style`. -/
def readDeclaration (decl : List Char) : Option (String × List Char) := do
  let (prop, val) ← splitColon decl
  let prop := lower (trim prop)
  let val := lower (trim val)
  if prop.isEmpty || val.isEmpty then none else some (.ofList prop, val)

def parseInlineStyle (style : List Char) : List (String × List Char) :=
  (style.splitOn ';').filterMap readDeclaration

section Numbers

variable (parseF64 : List Char → Option F64)

/-- `val.strip_suffix("px").unwrap_or(val)`. -/
def stripPx (val : List Char) : List Char :=
  if "px".toList.isSuffixOf val then val.take (val.length - 2) else val

def parsePx (val : List Char) : Option F64 := parseF64 (trim (stripPx val))

def opacityIsZero (val : List Char) : Bool :=
  (parseF64 (trim (val.rdropWhile (· == '%')))).any F64.leEpsilon

def fontSizeIsZero (val : List Char) : Bool :=
  (parseF64 (val.takeWhile fun c => c.isDigit || c == '.')).any F64.leEpsilon

/-- One turn of the loop of `parse_translate_px`. -/
def keepMin (min : Option F64) (part : List Char) : Option F64 :=
  match parsePx parseF64 (trim part), min with
  | some pxVal, some current => if pxVal.lt current then some pxVal else some current
  | some pxVal, none => some pxVal
  | none, min => min

def isTranslateStop (c : Char) : Bool := c == '(' || c == ',' || c == ')'

def parseTranslatePx (val : List Char) : Option F64 :=
  (val.splitOnP isTranslateStop).foldl (keepMin parseF64) none

structure StyleHints where
  position : Option (List Char) := none
  leftPx : Option F64 := none
  topPx : Option F64 := none
  transformOffsetPx : Option F64 := none
  color : Option (List Char) := none
  bgColor : Option (List Char) := none

def StyleHints.record (hints : StyleHints) (decl : String × List Char) : StyleHints :=
  match decl.1 with
  | "position" => { hints with position := some decl.2 }
  | "left" => { hints with leftPx := parsePx parseF64 decl.2 }
  | "top" => { hints with topPx := parsePx parseF64 decl.2 }
  | "transform" => { hints with transformOffsetPx := parseTranslatePx parseF64 decl.2 }
  | "color" => { hints with color := some decl.2 }
  | "background-color" => { hints with bgColor := some decl.2 }
  | _ => hints

/-- `v < -100.0`. -/
def farOff (px : F64) : Bool := px.lt (.finite (-100))

def StyleHints.positioned (hints : StyleHints) : Bool :=
  hints.position == some "absolute".toList || hints.position == some "fixed".toList

def StyleHints.isOffscreen (hints : StyleHints) : Bool :=
  hints.positioned &&
    (hints.leftPx.any farOff || hints.topPx.any farOff || hints.transformOffsetPx.any farOff)

def StyleHints.isColorMatch (hints : StyleHints) : Bool :=
  match hints.color, hints.bgColor with
  | some c, some bg => c == bg
  | _, _ => false

def classifySingleDeclaration (decl : String × List Char) : Option HiddenMethod :=
  match decl.1 with
  | "display" => if decl.2 = "none".toList then some .displayNone else none
  | "visibility" => if decl.2 = "hidden".toList then some .visibilityHidden else none
  | "opacity" => if opacityIsZero parseF64 decl.2 then some .opacityZero else none
  | "font-size" => if fontSizeIsZero parseF64 decl.2 then some .zeroFont else none
  | _ => none

/-- What `classify_inline_style` makes of the hints at the end. -/
def StyleHints.verdict (hints : StyleHints) : Option HiddenMethod :=
  if hints.isOffscreen then some .offScreen
  else if hints.isColorMatch then some .colorMatch
  else none

/-- The loop of `classify_inline_style`. -/
def classifyFrom : StyleHints → List (String × List Char) → Option HiddenMethod
  | hints, [] => hints.verdict
  | hints, decl :: rest =>
      match classifySingleDeclaration parseF64 decl with
      | some method => some method
      | none => classifyFrom (hints.record parseF64 decl) rest

def classifyInlineStyle (style : List Char) : Option HiddenMethod :=
  classifyFrom parseF64 {} (parseInlineStyle style)

end Numbers

/-! ## Styles as lists of declarations -/

/-- A declaration as it is written, blanks and letter case included. -/
structure Declaration where
  property : List Char
  value : List Char
  property_chars : ∀ c ∈ property, c ≠ ':' ∧ c ≠ ';'
  value_chars : ∀ c ∈ value, c ≠ ';'
  property_written : trim property ≠ []
  value_written : trim value ≠ []

/-- What `parse_inline_style` makes of a declaration. -/
def Declaration.read (d : Declaration) : String × List Char :=
  (.ofList (lower (trim d.property)), lower (trim d.value))

def styleText (ds : List Declaration) : List Char :=
  [';'].intercalate (ds.map fun d => d.property ++ ':' :: d.value)

theorem splitColon_text (d : Declaration) :
    splitColon (d.property ++ ':' :: d.value) = some (d.property, d.value) := by
  have hbefore : ∀ c ∈ d.property, (c != ':') = true := by
    intro c hc
    exact bne_iff_ne.mpr (d.property_chars c hc).1
  rw [splitColon, List.dropWhile_append_of_pos hbefore, List.takeWhile_append_of_pos hbefore]
  simp

theorem readDeclaration_text (d : Declaration) :
    readDeclaration (d.property ++ ':' :: d.value) = some d.read := by
  have hprop : lower (trim d.property) ≠ [] := by
    simpa [lower] using d.property_written
  have hval : lower (trim d.value) ≠ [] := by
    simpa [lower] using d.value_written
  simp [readDeclaration, splitColon_text, hprop, hval, Declaration.read]

/-- The parser reads back every declaration. -/
theorem parseInlineStyle_styleText (ds : List Declaration) :
    parseInlineStyle (styleText ds) = ds.map Declaration.read := by
  rcases hds : ds with _ | ⟨d, rest⟩
  · rfl
  · rw [← hds, parseInlineStyle, styleText, List.splitOn_intercalate, List.filterMap_map]
    · exact (List.filterMap_congr fun d _ => readDeclaration_text d).trans
        (congrFun List.filterMap_eq_map ds)
    · intro text htext
      obtain ⟨d, -, rfl⟩ := List.mem_map.mp htext
      intro hmem
      rcases List.mem_append.mp hmem with hmem | hmem
      · exact (d.property_chars _ hmem).2 rfl
      · rcases List.mem_cons.mp hmem with heq | hmem
        · exact absurd heq (by decide)
        · exact d.value_chars _ hmem rfl
    · simp [hds]

/-! ## `!important` -/

theorem isWhitespace_toAsciiLower (c : Char) :
    isWhitespace (toAsciiLower c) = isWhitespace c := by
  rcases toAsciiLower_cases c with ⟨hlow, hhigh, hnat⟩ | hsame
  · rw [Bool.eq_iff_iff]
    simp only [isWhitespace, hnat, Bool.or_eq_true, Bool.and_eq_true, decide_eq_true_eq,
      beq_iff_eq]
    omega
  · rw [hsame]

theorem lower_trim (s : List Char) : lower (trim s) = trim (lower s) := by
  have hcomp : isWhitespace ∘ toAsciiLower = isWhitespace := funext isWhitespace_toAsciiLower
  simp only [lower, trim, List.dropWhile_map, ← List.map_reverse, hcomp]

theorem lower_append (s t : List Char) : lower (s ++ t) = lower s ++ lower t := List.map_append

theorem all_isWhitespace_lower {blank : List Char} (h : blank.all isWhitespace = true) :
    (lower blank).all isWhitespace = true := by
  have hcomp : isWhitespace ∘ toAsciiLower = isWhitespace := funext isWhitespace_toAsciiLower
  rw [lower, List.all_map, hcomp, h]

/-- What is appended to a value and does not end in a blank stays. -/
theorem trim_append_concat {v : List Char} (hv : trim v ≠ []) (s : List Char) {c : Char}
    (hc : isWhitespace c = false) :
    trim (v ++ (s ++ [c])) =
      trim v ++ ((v.dropWhile isWhitespace).rtakeWhile isWhitespace ++ (s ++ [c])) := by
  have hstart : (v.dropWhile isWhitespace).isEmpty = false := by
    rw [List.isEmpty_eq_false_iff]
    intro hnil
    rw [trim, hnil] at hv
    exact hv rfl
  change ((v ++ (s ++ [c])).dropWhile isWhitespace).rdropWhile isWhitespace =
    (v.dropWhile isWhitespace).rdropWhile isWhitespace ++ _
  rw [List.dropWhile_append, hstart, if_neg Bool.false_ne_true, ← List.append_assoc,
    List.rdropWhile_concat_neg _ _ _ (by rw [hc]; exact Bool.false_ne_true), ← List.append_assoc,
    ← List.append_assoc, List.rdropWhile_append_rtakeWhile, List.append_assoc]

/-- `d'` is `d` with `!important` at the end of its value. -/
def MarkedImportant (d d' : Declaration) : Prop :=
  d'.property = d.property ∧ ∃ blank blank' word, blank.all isWhitespace = true ∧
    blank'.all isWhitespace = true ∧ lower word = "important".toList ∧
    d'.value = d.value ++ (blank ++ '!' :: (blank' ++ word))

/-- The same of the values as they are read. -/
def Marked (v w : List Char) : Prop :=
  ∃ blank blank', blank.all isWhitespace = true ∧ blank'.all isWhitespace = true ∧
    w = v ++ (blank ++ '!' :: (blank' ++ "important".toList))

theorem MarkedImportant.read {d d' : Declaration} (h : MarkedImportant d d') :
    d'.read.1 = d.read.1 ∧ Marked d.read.2 d'.read.2 := by
  obtain ⟨hprop, blank, blank', word, hblank, hblank', hword, hvalue⟩ := h
  have hwritten : trim (lower d.value) ≠ [] := by
    rw [← lower_trim]
    simpa [lower] using d.value_written
  have hsplit : "important".toList = "importan".toList ++ ['t'] := rfl
  have hlast : isWhitespace 't' = false := rfl
  have htrim := trim_append_concat hwritten
    (lower blank ++ '!' :: (lower blank' ++ "importan".toList)) hlast
  have hlower : lower d'.value = lower d.value ++
      (lower blank ++ '!' :: (lower blank' ++ "importan".toList) ++ ['t']) := by
    have hbang : lower ('!' :: (blank' ++ word)) = '!' :: (lower blank' ++ lower word) := by
      simp [lower, toAsciiLower]
    rw [hvalue, lower_append, lower_append, hbang, hword, hsplit]
    simp
  refine ⟨by simp only [Declaration.read, hprop],
    ((lower d.value).dropWhile isWhitespace).rtakeWhile isWhitespace ++ lower blank,
    lower blank', ?_, all_isWhitespace_lower hblank', ?_⟩
  · rw [List.all_append, all_isWhitespace_lower hblank, Bool.and_true, List.all_eq_true]
    intro c hc
    exact List.mem_rtakeWhile_imp hc
  · simp only [Declaration.read, lower_trim, hlower, htrim, hsplit]
    simp

/-- The value ends in `!important`. -/
def endsImportant (val : List Char) : Bool :=
  "important".toList.isSuffixOf val &&
    ((val.take (val.length - 9)).rdropWhile isWhitespace).getLast? == some '!'

def dropImportant (val : List Char) : List Char :=
  if endsImportant val then
    ((val.take (val.length - 9)).rdropWhile isWhitespace).dropLast.rdropWhile isWhitespace
  else val

/-- A value without the mark, with no blank at its end. -/
def Unmarked (v : List Char) : Prop :=
  v.rdropWhile isWhitespace = v ∧ endsImportant v = false

theorem rdropWhile_append_all {p : Char → Bool} {blank : List Char} (h : blank.all p = true)
    (l : List Char) : (l ++ blank).rdropWhile p = l.rdropWhile p := by
  rw [List.rdropWhile, List.reverse_append, List.dropWhile_append_of_pos, List.rdropWhile]
  intro c hc
  exact List.all_eq_true.mp h c (List.mem_reverse.mp hc)

theorem marked_body {v blank blank' : List Char} (hblank' : blank'.all isWhitespace = true) :
    let w := v ++ (blank ++ '!' :: (blank' ++ "important".toList))
    (w.take (w.length - 9)).rdropWhile isWhitespace = v ++ blank ++ ['!'] := by
  intro w
  have hw : w = (v ++ blank ++ ['!'] ++ blank') ++ "important".toList := by simp [w]
  have hlength : w.length - 9 = (v ++ blank ++ ['!'] ++ blank').length := by
    rw [hw, List.length_append]
    exact Nat.add_sub_cancel _ 9
  rw [hlength, hw, List.take_left, rdropWhile_append_all hblank',
    List.rdropWhile_concat_neg _ _ _ (by decide)]

theorem Marked.endsImportant {v w : List Char} (h : Marked v w) : endsImportant w = true := by
  obtain ⟨blank, blank', -, hblank', rfl⟩ := h
  have hsuffix : "important".toList.isSuffixOf
      (v ++ (blank ++ '!' :: (blank' ++ "important".toList))) = true := by
    rw [List.isSuffixOf_iff_suffix]
    exact ⟨v ++ (blank ++ '!' :: blank'), by simp⟩
  rw [StyleParse.endsImportant, hsuffix, marked_body hblank', Bool.true_and, List.getLast?_concat]
  rfl

theorem Marked.dropImportant {v w : List Char} (hv : Unmarked v) (h : Marked v w) :
    dropImportant w = v := by
  have hends := h.endsImportant
  obtain ⟨blank, blank', hblank, hblank', rfl⟩ := h
  rw [StyleParse.dropImportant, hends, if_pos rfl, marked_body hblank', List.dropLast_concat,
    rdropWhile_append_all hblank, hv.1]

theorem Marked.bang_mem {v w : List Char} (h : Marked v w) : '!' ∈ w := by
  obtain ⟨blank, blank', -, -, rfl⟩ := h
  simp

theorem Declaration.unmarked {d : Declaration} (h : endsImportant d.read.2 = false) :
    Unmarked d.read.2 := by
  refine ⟨?_, h⟩
  change (lower (trim d.value)).rdropWhile isWhitespace = lower (trim d.value)
  rw [lower_trim]
  exact List.rdropWhile_idempotent _ _

/-! ## What the mark does to a value -/

theorem mem_rdropWhile {p : Char → Bool} {c : Char} {l : List Char} (hc : c ∈ l)
    (hp : p c = false) : c ∈ l.rdropWhile p := by
  rw [← List.rdropWhile_append_rtakeWhile (p := p) (l := l), List.mem_append] at hc
  rcases hc with hc | hc
  · exact hc
  · have hpos := List.mem_rtakeWhile_imp hc
    rw [hp] at hpos
    cases hpos

theorem mem_trim_of_mem {c : Char} {s : List Char} (hc : c ∈ s) (hp : isWhitespace c = false) :
    c ∈ trim s := by
  apply mem_rdropWhile _ hp
  rw [← List.takeWhile_append_dropWhile (p := isWhitespace) (l := s), List.mem_append] at hc
  rcases hc with hc | hc
  · have hpos := List.mem_takeWhile_imp hc
    rw [hp] at hpos
    cases hpos
  · exact hc

theorem bang_mem_stripPx {val : List Char} (h : '!' ∈ val) : '!' ∈ stripPx val := by
  unfold stripPx
  split
  · rename_i hsuffix
    obtain ⟨stem, rfl⟩ := List.isSuffixOf_iff_suffix.mp hsuffix
    have hlength : (stem ++ "px".toList).length - 2 = stem.length := by
      rw [List.length_append]
      exact Nat.add_sub_cancel _ 2
    rw [hlength, List.take_left]
    rcases List.mem_append.mp h with h | h
    · exact h
    · exact absurd h (by decide)
  · exact h

theorem toNat_of_isWhitespace {c : Char} (h : isWhitespace c = true) :
    c.toNat ≤ 32 ∨ 128 ≤ c.toNat := by
  simp only [isWhitespace, Bool.or_eq_true, Bool.and_eq_true, decide_eq_true_eq, beq_iff_eq] at h
  omega

/-- A blank is none of the characters that the parsers look for. -/
theorem ne_of_isWhitespace {c k : Char} (h : isWhitespace c = true)
    (hk : 32 < k.toNat ∧ k.toNat < 128) : (c == k) = false := by
  rw [beq_eq_false_iff_ne]
  rintro rfl
  have := toNat_of_isWhitespace h
  omega

theorem not_isDigit_of_isWhitespace {c : Char} (h : isWhitespace c = true) :
    c.isDigit = false := by
  rw [Bool.eq_false_iff, Char.isDigit, ne_eq, Bool.and_eq_true, decide_eq_true_eq,
    decide_eq_true_eq]
  intro hdigit
  have hlow : 48 ≤ c.toNat := hdigit.1
  have hhigh : c.toNat ≤ 57 := hdigit.2
  have := toNat_of_isWhitespace h
  omega

theorem fontSizeIsZero_marked (parseF64 : List Char → Option F64) {v w : List Char}
    (h : Marked v w) : fontSizeIsZero parseF64 w = fontSizeIsZero parseF64 v := by
  obtain ⟨blank, blank', hblank, -, rfl⟩ := h
  have hstop : (blank ++ '!' :: (blank' ++ "important".toList)).takeWhile
      (fun c => c.isDigit || c == '.') = [] := by
    rcases blank with _ | ⟨b, blank⟩
    · rfl
    · have hb : isWhitespace b = true := List.all_eq_true.mp hblank b List.mem_cons_self
      rw [List.cons_append, List.takeWhile_cons, not_isDigit_of_isWhitespace hb,
        ne_of_isWhitespace hb (by decide)]
      rfl
  rw [fontSizeIsZero, fontSizeIsZero, List.takeWhile_append, hstop, List.append_nil]
  split
  · rename_i hall
    rw [List.IsPrefix.eq_of_length (List.takeWhile_prefix _) hall]
  · rfl

/-- What is appended without a stop joins the last part. -/
theorem splitOnP_append_of_no_stop {p : Char → Bool} {s : List Char} (hs : ∀ c ∈ s, p c = false)
    (v : List Char) : ∃ init last, v.splitOnP p = init ++ [last] ∧
      (v ++ s).splitOnP p = init ++ [last ++ s] := by
  induction v with
  | nil => exact ⟨[], [], rfl, List.splitOnP_eq_singleton hs⟩
  | cons c v ih =>
      obtain ⟨init, last, hv, hvs⟩ := ih
      rw [List.cons_append, List.splitOnP_cons_eq_if_modifyHead,
        List.splitOnP_cons_eq_if_modifyHead, hv, hvs]
      split
      · exact ⟨[] :: init, last, rfl, rfl⟩
      · rcases init with _ | ⟨first, init⟩
        · exact ⟨[], c :: last, rfl, rfl⟩
        · exact ⟨(c :: first) :: init, last, rfl, rfl⟩

/-- One more part leaves an offset that is far off far off. -/
theorem farOff_keepMin {parseF64 : List Char → Option F64} {min : Option F64} {part : List Char}
    (h : min.any farOff = true) : (keepMin parseF64 min part).any farOff = true := by
  unfold keepMin
  split
  · split
    · rename_i hlt
      exact F64.lt_trans hlt h
    · exact h
  · cases h
  · exact h

theorem keepMin_of_none {parseF64 : List Char → Option F64} {part : List Char}
    (h : parsePx parseF64 (trim part) = none) (min : Option F64) :
    keepMin parseF64 min part = min := by
  simp only [keepMin, h]

section Bang

variable {parseF64 : List Char → Option F64} (hbang : ∀ text, '!' ∈ text → parseF64 text = none)
include hbang

theorem parsePx_of_bang {val : List Char} (h : '!' ∈ val) : parsePx parseF64 val = none :=
  hbang _ (mem_trim_of_mem (bang_mem_stripPx h) rfl)

theorem opacityIsZero_of_bang {val : List Char} (h : '!' ∈ val) :
    opacityIsZero parseF64 val = false := by
  rw [opacityIsZero, hbang _ (mem_trim_of_mem (mem_rdropWhile h rfl) rfl)]
  rfl

/-- The mark can only take an offset away. -/
theorem farOff_translate_marked {v w : List Char} (h : Marked v w)
    (hfar : (parseTranslatePx parseF64 w).any farOff = true) :
    (parseTranslatePx parseF64 v).any farOff = true := by
  obtain ⟨blank, blank', hblank, hblank', rfl⟩ := h
  have hblanks : ∀ blank : List Char, blank.all isWhitespace = true →
      ∀ c ∈ blank, isTranslateStop c = false := by
    intro blank hall c hc
    have hc := List.all_eq_true.mp hall c hc
    rw [isTranslateStop, ne_of_isWhitespace hc (by decide), ne_of_isWhitespace hc (by decide),
      ne_of_isWhitespace hc (by decide)]
    rfl
  have hstops : ∀ c ∈ blank ++ '!' :: (blank' ++ "important".toList),
      isTranslateStop c = false := by
    intro c hc
    rw [List.mem_append, List.mem_cons, List.mem_append] at hc
    rcases hc with hc | rfl | hc | hc
    · exact hblanks blank hblank c hc
    · rfl
    · exact hblanks blank' hblank' c hc
    · have hword : ("important".toList.all fun c => !isTranslateStop c) = true := rfl
      simpa using List.all_eq_true.mp hword c hc
  obtain ⟨init, last, hv, hw⟩ := splitOnP_append_of_no_stop hstops v
  have hlast : keepMin parseF64 (init.foldl (keepMin parseF64) none)
      (last ++ (blank ++ '!' :: (blank' ++ "important".toList))) =
        init.foldl (keepMin parseF64) none := by
    apply keepMin_of_none
    exact parsePx_of_bang hbang (mem_trim_of_mem (by simp) rfl)
  rw [parseTranslatePx, hw, List.foldl_append, List.foldl_cons, List.foldl_nil, hlast] at hfar
  rw [parseTranslatePx, hv, List.foldl_append, List.foldl_cons, List.foldl_nil]
  exact farOff_keepMin hfar

/-! ## What the marks do to a verdict -/

/-- The value, with or without the mark. -/
def Varied (decl decl' : String × List Char) : Prop :=
  decl'.1 = decl.1 ∧ (decl'.2 = decl.2 ∨ Marked decl.2 decl'.2)

omit hbang in
theorem Varied.dropImportant {decl decl' : String × List Char} (hplain : Unmarked decl.2)
    (h : Varied decl decl') : dropImportant decl'.2 = decl.2 := by
  rcases h.2 with heq | hmarked
  · rw [heq, StyleParse.dropImportant, hplain.2, if_neg Bool.false_ne_true]
  · exact hmarked.dropImportant hplain

/-- Declarations that hide by themselves only get fewer. -/
theorem classifySingle_of_varied {decl decl' : String × List Char} (h : Varied decl decl')
    {method : HiddenMethod} (hhit : classifySingleDeclaration parseF64 decl' = some method) :
    classifySingleDeclaration parseF64 decl = some method := by
  obtain ⟨prop, v⟩ := decl
  obtain ⟨prop', w⟩ := decl'
  obtain ⟨hprop, hvalue⟩ := h
  obtain rfl : prop' = prop := hprop
  rcases hvalue with heq | hmarked
  · obtain rfl : w = v := heq
    exact hhit
  · have hmem : '!' ∈ w := hmarked.bang_mem
    unfold classifySingleDeclaration at hhit ⊢
    split at hhit
    · split at hhit
      · rename_i hnone
        rw [show w = "none".toList from hnone] at hmem
        exact absurd hmem (by decide)
      · cases hhit
    · split at hhit
      · rename_i hhidden
        rw [show w = "hidden".toList from hhidden] at hmem
        exact absurd hmem (by decide)
      · cases hhit
    · rw [opacityIsZero_of_bang hbang hmem] at hhit
      cases hhit
    · rename_i hfont
      obtain rfl : prop' = "font-size" := hfont
      rw [fontSizeIsZero_marked parseF64 hmarked] at hhit
      exact hhit
    · cases hhit

/-- The hints `h'` of a style with marks, beside those without. -/
structure Fewer (h h' : StyleHints) : Prop where
  position : h'.position.map dropImportant = h.position
  left : h'.leftPx.any farOff = true → h.leftPx.any farOff = true
  top : h'.topPx.any farOff = true → h.topPx.any farOff = true
  transform : h'.transformOffsetPx.any farOff = true → h.transformOffsetPx.any farOff = true
  color : h'.color.map dropImportant = h.color
  bgColor : h'.bgColor.map dropImportant = h.bgColor

theorem farOff_px_of_varied {decl decl' : String × List Char} (h : Varied decl decl')
    (hfar : (parsePx parseF64 decl'.2).any farOff = true) :
    (parsePx parseF64 decl.2).any farOff = true := by
  rcases h.2 with heq | hmarked
  · rw [← heq]
    exact hfar
  · rw [parsePx_of_bang hbang hmarked.bang_mem] at hfar
    cases hfar

theorem farOff_translate_of_varied {decl decl' : String × List Char} (h : Varied decl decl')
    (hfar : (parseTranslatePx parseF64 decl'.2).any farOff = true) :
    (parseTranslatePx parseF64 decl.2).any farOff = true := by
  rcases h.2 with heq | hmarked
  · rw [← heq]
    exact hfar
  · exact farOff_translate_marked hbang hmarked hfar

theorem Fewer.record {h h' : StyleHints} (hfewer : Fewer h h') {decl decl' : String × List Char}
    (hplain : Unmarked decl.2) (hvaried : Varied decl decl') :
    Fewer (h.record parseF64 decl) (h'.record parseF64 decl') := by
  have hdrop : (some decl'.2).map StyleParse.dropImportant = some decl.2 :=
    congrArg some (hvaried.dropImportant hplain)
  unfold StyleHints.record
  rw [hvaried.1]
  split
  · exact { hfewer with position := hdrop }
  · exact { hfewer with left := farOff_px_of_varied hbang hvaried }
  · exact { hfewer with top := farOff_px_of_varied hbang hvaried }
  · exact { hfewer with transform := farOff_translate_of_varied hbang hvaried }
  · exact { hfewer with color := hdrop }
  · exact { hfewer with bgColor := hdrop }
  · exact hfewer

omit hbang in
theorem Fewer.isOffscreen {h h' : StyleHints} (hfewer : Fewer h h')
    (hoff : h'.isOffscreen = true) : h.isOffscreen = true := by
  rw [StyleHints.isOffscreen, Bool.and_eq_true] at hoff ⊢
  obtain ⟨hpositioned, hfar⟩ := hoff
  constructor
  · rw [StyleHints.positioned, Bool.or_eq_true, beq_iff_eq, beq_iff_eq] at hpositioned
    rw [StyleHints.positioned, ← hfewer.position]
    rcases hpositioned with hpos | hpos
    · rw [hpos]
      rfl
    · rw [hpos]
      rfl
  · rw [Bool.or_eq_true, Bool.or_eq_true] at hfar ⊢
    exact hfar.imp (Or.imp hfewer.left hfewer.top) hfewer.transform

omit hbang in
theorem Fewer.isColorMatch {h h' : StyleHints} (hfewer : Fewer h h')
    (hmatch : h'.isColorMatch = true) : h.isColorMatch = true := by
  unfold StyleHints.isColorMatch at hmatch
  split at hmatch
  · rename_i c bg hcolor hbg
    rw [beq_iff_eq] at hmatch
    rw [StyleHints.isColorMatch, ← hfewer.color, ← hfewer.bgColor, hcolor, hbg, hmatch]
    exact beq_self_eq_true _
  · cases hmatch

/-- The first declaration that hides by itself is a font size; or there is none, and the
    hints hide nothing. -/
def robustFrom (parseF64 : List Char → Option F64) (hints : StyleHints)
    (decls : List (String × List Char)) : Bool :=
  match decls.find? fun decl => (classifySingleDeclaration parseF64 decl).isSome with
  | some decl => decl.1 == "font-size"
  | none =>
      let final := decls.foldl (StyleHints.record parseF64) hints
      !final.isOffscreen && !final.isColorMatch

omit hbang in
theorem classifySingle_zeroFont_iff {decl : String × List Char} {method : HiddenMethod}
    (h : classifySingleDeclaration parseF64 decl = some method) :
    decl.1 = "font-size" ↔ method = .zeroFont := by
  unfold classifySingleDeclaration at h
  split at h
  case h_5 => cases h
  all_goals
    rename_i hprop
    rw [hprop]
    split at h
    · cases h
      decide
    · cases h

omit hbang in
theorem robustFrom_iff (hints : StyleHints) (decls : List (String × List Char)) :
    robustFrom parseF64 hints decls = true ↔
      classifyFrom parseF64 hints decls = none ∨
        classifyFrom parseF64 hints decls = some .zeroFont := by
  induction decls generalizing hints with
  | nil =>
      simp only [robustFrom, List.find?_nil, List.foldl_nil, classifyFrom, StyleHints.verdict]
      rcases hints.isOffscreen with _ | _
      · rcases hints.isColorMatch with _ | _ <;> simp
      · simp
  | cons decl rest ih =>
      rcases hhit : classifySingleDeclaration parseF64 decl with _ | method
      · have hrest := ih (hints.record parseF64 decl)
        simp only [robustFrom, List.find?_cons, hhit, Option.isSome_none, List.foldl_cons,
          classifyFrom] at hrest ⊢
        exact hrest
      · simp only [robustFrom, List.find?_cons, hhit, Option.isSome_some, classifyFrom,
          beq_iff_eq, Option.some.injEq, reduceCtorEq, false_or]
        exact classifySingle_zeroFont_iff hhit

/-- A robust verdict does not depend on the marks. -/
theorem classifyFrom_of_varied {h h' : StyleHints} (hfewer : Fewer h h')
    {decls decls' : List (String × List Char)} (hvaried : List.Forall₂ Varied decls decls')
    (hplain : ∀ decl ∈ decls, Unmarked decl.2) (hrobust : robustFrom parseF64 h decls = true) :
    classifyFrom parseF64 h' decls' = classifyFrom parseF64 h decls := by
  induction hvaried generalizing h h' with
  | nil =>
      simp only [robustFrom, List.find?_nil, List.foldl_nil, Bool.and_eq_true,
        Bool.not_eq_true'] at hrobust
      have hoff : h'.isOffscreen = false := by
        rw [Bool.eq_false_iff]
        intro hoff
        rw [hfewer.isOffscreen hoff] at hrobust
        cases hrobust.1
      have hmatch : h'.isColorMatch = false := by
        rw [Bool.eq_false_iff]
        intro hmatch
        rw [hfewer.isColorMatch hmatch] at hrobust
        cases hrobust.2
      simp only [classifyFrom, StyleHints.verdict, hoff, hmatch, hrobust.1, hrobust.2]
  | @cons decl decl' rest rest' hdecl _ ih =>
      rcases hhit : classifySingleDeclaration parseF64 decl with _ | method
      · have hhit' : classifySingleDeclaration parseF64 decl' = none := by
          rw [Option.eq_none_iff_forall_ne_some]
          intro method hmethod
          rw [classifySingle_of_varied hbang hdecl hmethod] at hhit
          cases hhit
        have hrest : robustFrom parseF64 (h.record parseF64 decl) rest = true := by
          simp only [robustFrom, List.find?_cons, hhit, Option.isSome_none,
            List.foldl_cons] at hrobust ⊢
          exact hrobust
        have hfirst := hplain decl List.mem_cons_self
        have hlater : ∀ decl ∈ rest, Unmarked decl.2 := by
          intro decl hmem
          exact hplain decl (List.mem_cons_of_mem _ hmem)
        simp only [classifyFrom, hhit, hhit']
        exact ih (hfewer.record hbang hfirst hdecl) hlater hrest
      · -- a font size, which the mark leaves as it is
        simp only [robustFrom, List.find?_cons, hhit, Option.isSome_some, beq_iff_eq] at hrobust
        have hsame : classifySingleDeclaration parseF64 decl' =
            classifySingleDeclaration parseF64 decl := by
          obtain ⟨prop, v⟩ := decl
          obtain ⟨prop', w⟩ := decl'
          obtain ⟨hprop, hvalue⟩ := hdecl
          obtain rfl : prop = "font-size" := hrobust
          obtain rfl : prop' = "font-size" := hprop
          rcases hvalue with heq | hmarked
          · obtain rfl : w = v := heq
            rfl
          · simp only [classifySingleDeclaration, fontSizeIsZero_marked parseF64 hmarked]
        simp only [classifyFrom, hsame, hhit]

/-- A mark on every value but the background's. -/
structure LoudDecl (decl : String × List Char) : Prop where
  background : decl.1 = "background-color" → endsImportant decl.2 = false
  other : decl.1 ≠ "background-color" → endsImportant decl.2 = true ∧ '!' ∈ decl.2

structure LoudHints (hints : StyleHints) : Prop where
  position : ∀ w, hints.position = some w → '!' ∈ w
  color : ∀ w, hints.color = some w → endsImportant w = true
  bgColor : ∀ w, hints.bgColor = some w → endsImportant w = false

omit hbang in
theorem LoudHints.record {hints : StyleHints} (h : LoudHints hints) {decl : String × List Char}
    (hdecl : LoudDecl decl) : LoudHints (hints.record parseF64 decl) := by
  unfold StyleHints.record
  split <;> rename_i hprop
  · have hmarked := hdecl.other (by rw [hprop]; decide)
    exact { h with position := by rintro w ⟨⟩; exact hmarked.2 }
  · exact { h with }
  · exact { h with }
  · exact { h with }
  · have hmarked := hdecl.other (by rw [hprop]; decide)
    exact { h with color := by rintro w ⟨⟩; exact hmarked.1 }
  · exact { h with bgColor := by rintro w ⟨⟩; exact hdecl.background hprop }
  · exact h

omit hbang in
theorem LoudHints.verdict {hints : StyleHints} (h : LoudHints hints) : hints.verdict = none := by
  have hpositioned : hints.positioned = false := by
    rw [StyleHints.positioned, Bool.or_eq_false_iff, beq_eq_false_iff_ne, beq_eq_false_iff_ne]
    constructor
    · intro hpos
      exact absurd (h.position _ hpos) (by decide)
    · intro hpos
      exact absurd (h.position _ hpos) (by decide)
  have hmatch : hints.isColorMatch = false := by
    unfold StyleHints.isColorMatch
    split
    · rename_i c bg hcolor hbg
      rw [beq_eq_false_iff_ne]
      rintro rfl
      have hends := h.color _ hcolor
      rw [h.bgColor _ hbg] at hends
      cases hends
    · rfl
  simp only [StyleHints.verdict, StyleHints.isOffscreen, hpositioned, hmatch, Bool.false_and,
    Bool.false_eq_true, if_false]

theorem classifySingle_of_loud {decl : String × List Char} (h : LoudDecl decl)
    {method : HiddenMethod} (hhit : classifySingleDeclaration parseF64 decl = some method) :
    method = .zeroFont := by
  unfold classifySingleDeclaration at hhit
  split at hhit <;> rename_i hprop
  · have hmarked := h.other (by rw [hprop]; decide)
    split at hhit
    · rename_i hnone
      rw [hnone] at hmarked
      exact absurd hmarked.2 (by decide)
    · cases hhit
  · have hmarked := h.other (by rw [hprop]; decide)
    split at hhit
    · rename_i hhidden
      rw [hhidden] at hmarked
      exact absurd hmarked.2 (by decide)
    · cases hhit
  · have hmarked := h.other (by rw [hprop]; decide)
    rw [opacityIsZero_of_bang hbang hmarked.2] at hhit
    cases hhit
  · split at hhit
    · cases hhit
      rfl
    · cases hhit
  · cases hhit

/-- With these marks only a font size hides. -/
theorem classifyFrom_of_loud {hints : StyleHints} (hhints : LoudHints hints)
    {decls : List (String × List Char)} (h : ∀ decl ∈ decls, LoudDecl decl) :
    classifyFrom parseF64 hints decls = none ∨
      classifyFrom parseF64 hints decls = some .zeroFont := by
  induction decls generalizing hints with
  | nil => exact .inl hhints.verdict
  | cons decl rest ih =>
      have hdecl := h decl List.mem_cons_self
      rcases hhit : classifySingleDeclaration parseF64 decl with _ | method
      · simp only [classifyFrom, hhit]
        exact ih (hhints.record hdecl) fun decl hmem => h decl (List.mem_cons_of_mem _ hmem)
      · obtain rfl := classifySingle_of_loud hbang hdecl hhit
        right
        simp only [classifyFrom, hhit]

end Bang

/-! ## Spelling -/

/-- `d` with `!important` right after its value. -/
def Declaration.important (d : Declaration) : Declaration where
  property := d.property
  value := d.value ++ "!important".toList
  property_chars := d.property_chars
  value_chars := by
    intro c hc
    rcases List.mem_append.mp hc with hc | hc
    · exact d.value_chars c hc
    · rintro rfl
      exact absurd hc (by decide)
  property_written := d.property_written
  value_written := by
    have htrim := trim_append_concat d.value_written "!importan".toList
      (show isWhitespace 't' = false from rfl)
    change trim (d.value ++ ("!importan".toList ++ ['t'])) ≠ []
    rw [htrim]
    simp

theorem markedImportant_important (d : Declaration) : MarkedImportant d d.important :=
  ⟨rfl, [], [], "important".toList, rfl, rfl, rfl, rfl⟩

/-- A mark on every declaration but the background's. -/
def Declaration.loud (d : Declaration) : Declaration :=
  if d.read.1 = "background-color" then d else d.important

theorem loud_eq_or_marked (d : Declaration) : d.loud = d ∨ MarkedImportant d d.loud := by
  unfold Declaration.loud
  split
  · exact .inl rfl
  · exact .inr (markedImportant_important d)

theorem loudDecl_read {d : Declaration} (hplain : endsImportant d.read.2 = false) :
    LoudDecl d.loud.read := by
  by_cases hbg : d.read.1 = "background-color"
  · have hloud : d.loud = d := if_pos hbg
    rw [hloud]
    exact ⟨fun _ => hplain, fun hother => absurd hbg hother⟩
  · have hloud : d.loud = d.important := if_neg hbg
    obtain ⟨hprop, hmarked⟩ := (markedImportant_important d).read
    rw [hloud]
    exact ⟨fun heq => absurd (hprop ▸ heq) hbg, fun _ => ⟨hmarked.endsImportant, hmarked.bang_mem⟩⟩

/-- The two are written with other letter case or other blanks around. -/
def SameSpelling (d d' : Declaration) : Prop :=
  lower (trim d'.property) = lower (trim d.property) ∧
    lower (trim d'.value) = lower (trim d.value)

/-- The properties that the classifier looks at. -/
def readProperties : List String :=
  ["display", "visibility", "opacity", "font-size", "position", "left", "top", "transform",
    "color", "background-color"]

def Declaration.unrelated (d : Declaration) : Bool := !readProperties.contains d.read.1

section Spelling

variable (parseF64 : List Char → Option F64)

theorem classify_styleText (ds : List Declaration) :
    classifyInlineStyle parseF64 (styleText ds) =
      classifyFrom parseF64 {} (ds.map Declaration.read) := by
  rw [classifyInlineStyle, parseInlineStyle_styleText]

theorem classify_sameSpelling {ds ds' : List Declaration}
    (h : List.Forall₂ SameSpelling ds ds') :
    classifyInlineStyle parseF64 (styleText ds') = classifyInlineStyle parseF64 (styleText ds) := by
  have hread : ds'.map Declaration.read = ds.map Declaration.read := by
    induction h with
    | nil => rfl
    | cons hd _ ih => rw [List.map_cons, List.map_cons, ih, Declaration.read, hd.1, hd.2]; rfl
  rw [classify_styleText, classify_styleText, hread]

theorem classifyFrom_skip {decl : String × List Char} (h : readProperties.contains decl.1 = false)
    (hints : StyleHints) (before after : List (String × List Char)) :
    classifyFrom parseF64 hints (before ++ decl :: after) =
      classifyFrom parseF64 hints (before ++ after) := by
  induction before generalizing hints with
  | nil =>
      have hsingle : classifySingleDeclaration parseF64 decl = none := by
        unfold classifySingleDeclaration
        split <;> simp_all [readProperties]
      have hrecord : hints.record parseF64 decl = hints := by
        unfold StyleHints.record
        split <;> simp_all [readProperties]
      simp only [List.nil_append, classifyFrom, hsingle, hrecord]
  | cons first before ih =>
      simp only [List.cons_append, classifyFrom, ih]

theorem classify_insert_unrelated {extra : Declaration} (h : extra.unrelated = true)
    (before after : List Declaration) :
    classifyInlineStyle parseF64 (styleText (before ++ extra :: after)) =
      classifyInlineStyle parseF64 (styleText (before ++ after)) := by
  rw [Declaration.unrelated, Bool.not_eq_true'] at h
  rw [classify_styleText, classify_styleText, List.map_append, List.map_cons, List.map_append,
    classifyFrom_skip parseF64 h]

/-- The style is hidden first of all by a font size, or not at all. -/
def robust (ds : List Declaration) : Bool := robustFrom parseF64 {} (ds.map Declaration.read)

theorem forall₂_read {ds ds' : List Declaration}
    (h : List.Forall₂ (fun d d' => d' = d ∨ MarkedImportant d d') ds ds') :
    List.Forall₂ Varied (ds.map Declaration.read) (ds'.map Declaration.read) := by
  rw [List.forall₂_map_left_iff, List.forall₂_map_right_iff]
  apply h.imp
  rintro d d' (rfl | hmarked)
  · exact ⟨rfl, .inl rfl⟩
  · exact ⟨hmarked.read.1, .inr hmarked.read.2⟩

/-- **Detection stands any letter case, blanks and further declarations, but `!important`
    only where the style is hidden by its font size or not at all.** -/
theorem classify_spelling_iff (hbang : ∀ text, '!' ∈ text → parseF64 text = none)
    (ds : List Declaration) (hplain : ∀ d ∈ ds, endsImportant d.read.2 = false) :
    ((∀ ds', List.Forall₂ (fun d d' => d' = d ∨ MarkedImportant d d') ds ds' →
        classifyInlineStyle parseF64 (styleText ds') =
          classifyInlineStyle parseF64 (styleText ds)) ↔ robust parseF64 ds = true) ∧
    (∀ ds', List.Forall₂ SameSpelling ds ds' →
      classifyInlineStyle parseF64 (styleText ds') =
        classifyInlineStyle parseF64 (styleText ds)) ∧
    ∀ before after extra, ds = before ++ after → extra.unrelated = true →
      classifyInlineStyle parseF64 (styleText (before ++ extra :: after)) =
        classifyInlineStyle parseF64 (styleText ds) := by
  refine ⟨⟨?_, ?_⟩, ?_, ?_⟩
  · intro hsame
    -- the marks on all but the background leave no other verdict
    have hmarked : List.Forall₂ (fun d d' => d' = d ∨ MarkedImportant d d') ds
        (ds.map Declaration.loud) := by
      rw [List.forall₂_map_right_iff, List.forall₂_same]
      intro d _
      exact loud_eq_or_marked d
    have hloud : ∀ decl ∈ (ds.map Declaration.loud).map Declaration.read, LoudDecl decl := by
      intro decl hmem
      rw [List.map_map] at hmem
      obtain ⟨d, hd, rfl⟩ := List.mem_map.mp hmem
      exact loudDecl_read (hplain d hd)
    have hquiet : LoudHints {} := ⟨by simp, by simp, by simp⟩
    have hverdict := classifyFrom_of_loud hbang hquiet hloud
    rw [← classify_styleText, hsame _ hmarked, classify_styleText] at hverdict
    exact (robustFrom_iff _ _).mpr hverdict
  · intro hrobust ds' hmarked
    have hunmarked : ∀ decl ∈ ds.map Declaration.read, Unmarked decl.2 := by
      intro decl hmem
      obtain ⟨d, hd, rfl⟩ := List.mem_map.mp hmem
      exact Declaration.unmarked (hplain d hd)
    rw [classify_styleText, classify_styleText]
    exact classifyFrom_of_varied hbang ⟨rfl, id, id, id, rfl, rfl⟩ (forall₂_read hmarked)
      hunmarked hrobust
  · intro ds' hspelling
    exact classify_sameSpelling parseF64 hspelling
  · rintro before after extra rfl hunrelated
    exact classify_insert_unrelated parseF64 hunrelated before after

end Spelling

/-- `f64::from_str` on digits only. -/
def wholeNumber (text : List Char) : Option F64 :=
  if !text.isEmpty && text.all Char.isDigit then
    some (.finite (text.foldl (fun n c => 10 * n + (c.toNat - 48)) 0 : Nat))
  else none

theorem wholeNumber_of_bang (text : List Char) (h : '!' ∈ text) : wholeNumber text = none := by
  have hall : text.all Char.isDigit = false := by
    rw [List.all_eq_false]
    exact ⟨'!', h, by decide⟩
  rw [wholeNumber, hall, Bool.and_false, if_neg Bool.false_ne_true]

/-- `font-size: 0`. -/
def zeroFontSize : Declaration where
  property := "font-size".toList
  value := " 0".toList
  property_chars := by simp
  value_chars := by simp
  property_written := by decide +kernel
  value_written := by decide +kernel

theorem classify_zeroFontSize_important :
    classifyInlineStyle wholeNumber (styleText [zeroFontSize.important]) = some .zeroFont := by
  have hplain : ∀ d ∈ [zeroFontSize], endsImportant d.read.2 = false := by
    intro d hd
    rw [List.mem_singleton.mp hd]
    rfl
  have h := classify_spelling_iff wholeNumber wholeNumber_of_bang [zeroFontSize] hplain
  rw [h.1.mpr (by decide +kernel) [zeroFontSize.important]
    (.cons (.inr (markedImportant_important zeroFontSize)) .nil)]
  decide +kernel

/-- `display: none`. -/
def displayNone : Declaration where
  property := "display".toList
  value := " none".toList
  property_chars := by simp
  value_chars := by simp
  property_written := by decide +kernel
  value_written := by decide +kernel

/-- The browser still hides the element. -/
theorem displayNone_important_missed :
    styleText [displayNone] = "display: none".toList ∧
      classifyInlineStyle wholeNumber (styleText [displayNone]) = some .displayNone ∧
      MarkedImportant displayNone displayNone.important ∧
      styleText [displayNone.important] = "display: none!important".toList ∧
      classifyInlineStyle wholeNumber (styleText [displayNone.important]) = none :=
  ⟨rfl, by decide +kernel, markedImportant_important displayNone, rfl, by decide +kernel⟩

end RustyImap.StyleParse
