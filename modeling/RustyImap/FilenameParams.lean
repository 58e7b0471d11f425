import RustyImap.FileNames
import RustyImap.MimeParams

/-!
# File names from `BODYSTRUCTURE` (`rimap-content/src/parse/filename.rs`)

A server reports the parameters of a part undecoded.  `append_name_params` writes
those that can name the file into two headers, which the mail parser then decodes; a
sender chooses keys and values.

Keys and values are bytes here.  The source escapes characters: in UTF-8 the bytes of
`"` and `\` stand for nothing else.
-/

namespace RustyImap.ContentParse

open RustyImap.UnicodeFilter

/-! ## Writing the parameters -/

/-- `is_token_byte`. -/
def isTokenByte (b : UInt8) : Bool :=
  (0x21 ≤ b && b ≤ 0x7E) && !(utf8Bytes "()<>@,;:\\\"/[]?=").contains b

def lowerByte (b : UInt8) : UInt8 := if 65 ≤ b && b ≤ 90 then b + 32 else b

def eqIgnoreCaseBytes (a b : Bytes) : Bool := a.map lowerByte == b.map lowerByte

/-- The key without `*` and what follows is `name` or `filename`. -/
def isNameKey (key : Bytes) : Bool :=
  let base := key.takeWhile (· != 42)
  eqIgnoreCaseBytes base (utf8Bytes "name") || eqIgnoreCaseBytes base (utf8Bytes "filename")

def canSerialize (param : Bytes × Bytes) : Bool :=
  param.1.all isTokenByte && !param.2.any fun b => b == 13 || b == 10 || b == 0

/-- An RFC 2231 extended value is a token, never a quoted string. -/
def isTokenParam (param : Bytes × Bytes) : Bool :=
  param.1.getLast? == some 42 && !param.2.isEmpty && param.2.all isTokenByte

def serializedLen (param : Bytes × Bytes) : Nat :=
  let escaping :=
    if isTokenParam param then 0 else 2 + param.2.countP fun b => b == 34 || b == 92
  5 + param.1.length + param.2.length + escaping

def fitsLimit (limit : Nat) (header : Bytes) (param : Bytes × Bytes) : Bool :=
  decide (param.1.length ≤ limit) && decide (param.2.length ≤ limit) &&
    decide (serializedLen param ≤ limit - header.length)

def serializeParam (header : Bytes) (param : Bytes × Bytes) : Bytes :=
  header ++ utf8Bytes ";\r\n " ++ param.1 ++ [61] ++
    if isTokenParam param then param.2
    else [34] ++ (param.2.flatMap fun b => if b == 34 || b == 92 then [92, b] else [b]) ++ [34]

structure NameHeader where
  header : Bytes
  dropped : Bool
  withinLimit : Bool

def appendNameParams (limit : Nat) : List (Bytes × Bytes) → Bytes → Bool → NameHeader
  | [], header, dropped => ⟨header, dropped, true⟩
  | param :: rest, header, dropped =>
      if !isNameKey param.1 then appendNameParams limit rest header dropped
      else if !canSerialize param then appendNameParams limit rest header true
      else if !fitsLimit limit header param then ⟨header, dropped, false⟩
      else appendNameParams limit rest (serializeParam header param) dropped

def typeHeader : Bytes := utf8Bytes "Content-Type: application/octet-stream"

def dispositionHeader : Bytes := utf8Bytes "\r\nContent-Disposition: attachment"

/-- The first header, with room for the second. -/
def appendTypeParams (contentTypeParams : List (Bytes × Bytes)) : NameHeader :=
  appendNameParams (MAX_HEADER_BYTES - dispositionHeader.length - 4) contentTypeParams typeHeader
    false

def synthesizeHeader (contentTypeParams dispositionParams : List (Bytes × Bytes)) : NameHeader :=
  let typed := appendTypeParams contentTypeParams
  if typed.withinLimit then
    appendNameParams (MAX_HEADER_BYTES - 4) dispositionParams (typed.header ++ dispositionHeader)
      typed.dropped
  else typed

def headerEnd : Bytes := utf8Bytes "\r\n\r\n"

def attachmentFilenameFromParams (libs : ContentLibs)
    (contentTypeParams dispositionParams : List (Bytes × Bytes)) (idx : Nat) :
    Option String × List SecurityWarning :=
  let location := "attachment[" ++ toString idx ++ "]:filename"
  let synthesized := synthesizeHeader contentTypeParams dispositionParams
  let blocked :=
    if synthesized.dropped then
      [warningAt .parseHeaderSmugglingBlocked "reason=bodystructure_param_dropped" location]
    else []
  if !synthesized.withinLimit then
    (none, blocked ++ [warningAt .parseAttachmentFilenameRewritten
      ("reason=params_exceed_limit,limit=" ++ toString MAX_HEADER_BYTES) location])
  else
    match libs.safeParse (synthesized.header ++ headerEnd) with
    | .ok (some message) =>
        match (message.parts.head?.bind Part.attachmentName).filter (· != "") with
        | some name =>
            let sanitized := sanitizeAttachmentFilename libs idx name
            (some sanitized.1, blocked ++ sanitized.2)
        | none => (none, blocked)
    | .ok none | .error () => (none, blocked)

/-! ## The parameters that are kept -/

/-- It names the file and can be written. -/
def isEligible (param : Bytes × Bytes) : Bool := isNameKey param.1 && canSerialize param

/-- A parameter as it is written. -/
def written (param : Bytes × Bytes) : MimeParams.Param := ⟨param.1, param.2, isTokenParam param⟩

/-- `kept` are the eligible parameters up to the first that does not fit. -/
structure Kept (limit : Nat) (start : Bytes) (params kept : List (Bytes × Bytes))
    (withinLimit : Bool) : Prop where
  all : withinLimit = true → kept = params.filter isEligible
  untilFull : withinLimit = false → ∃ param rest,
    params.filter isEligible = kept ++ param :: rest ∧
    fitsLimit limit (start ++ MimeParams.folded (kept.map written)) param = false

theorem isTokenByte_eq (b : UInt8) : isTokenByte b = MimeParams.isToken b := by
  have htable : utf8Bytes "()<>@,;:\\\"/[]?=" = MimeParams.TSPECIALS := by decide
  have hlow : (0x21 ≤ b) = (32 < b) := by
    rw [UInt8.le_iff_toNat_le, UInt8.lt_iff_toNat_lt]
    rfl
  have hhigh : (b ≤ 0x7E) = (b < 127) := by
    rw [UInt8.le_iff_toNat_le, UInt8.lt_iff_toNat_lt]
    exact propext Nat.lt_succ_iff.symm
  simp only [isTokenByte, MimeParams.isToken, htable, hlow, hhigh]

theorem serializeParam_eq (header : Bytes) (param : Bytes × Bytes) :
    serializeParam header param = header ++ MimeParams.folded [written param] := by
  have hfold : utf8Bytes ";\r\n " = [59, 13, 10, 32] := by decide
  have hescaped : (fun b : UInt8 => if b == 34 || b == 92 then [92, b] else [b]) =
      MimeParams.escaped := by
    funext b
    simp [MimeParams.escaped]
  rw [serializeParam, hfold, hescaped]
  simp only [MimeParams.folded, MimeParams.Param.text, written, List.flatMap_cons,
    List.flatMap_nil, List.append_nil, MimeParams.quote]
  split <;> simp

theorem length_escaped (value : Bytes) :
    (value.flatMap MimeParams.escaped).length =
      value.length + value.countP fun b => b == 34 || b == 92 := by
  induction value with
  | nil => rfl
  | cons b rest ih =>
      rw [List.flatMap_cons, List.length_append, ih, List.countP_cons, List.length_cons]
      rcases hb : (b == 34 || b == 92) with _ | _
      · have hlength : (MimeParams.escaped b).length = 1 := by
          have hplain : ¬(b = 34 ∨ b = 92) := by simpa using hb
          simp [MimeParams.escaped, hplain]
        simp only [hlength, Bool.false_eq_true, if_false]
        omega
      · have hlength : (MimeParams.escaped b).length = 2 := by
          have hspecial : b = 34 ∨ b = 92 := by simpa using hb
          simp [MimeParams.escaped, hspecial]
        simp only [hlength, if_true]
        omega

/-- The size that is checked is the size that is written. -/
theorem length_serializeParam (header : Bytes) (param : Bytes × Bytes) :
    (serializeParam header param).length = header.length + serializedLen param := by
  rw [serializeParam_eq, List.length_append, Nat.add_left_cancel_iff]
  simp only [MimeParams.folded, MimeParams.Param.text, written, List.flatMap_cons,
    List.flatMap_nil, List.append_nil, serializedLen]
  split
  · simp only [List.length_append, List.length_cons, List.length_nil]
    omega
  · simp only [MimeParams.quote, List.length_append, List.length_cons, List.length_nil,
      length_escaped]
    omega

theorem folded_append (a b : List MimeParams.Param) :
    MimeParams.folded (a ++ b) = MimeParams.folded a ++ MimeParams.folded b :=
  List.flatMap_append

/-! ### One parameter -/

section Step

variable {limit : Nat} {param : Bytes × Bytes} (rest : List (Bytes × Bytes)) (header : Bytes)
  (dropped : Bool)

/-- A parameter that is not eligible is passed over. -/
theorem appendNameParams_of_not_eligible (h : isEligible param = false) :
    ∃ dropped', appendNameParams limit (param :: rest) header dropped =
      appendNameParams limit rest header dropped' := by
  rw [isEligible, Bool.and_eq_false_iff] at h
  rcases hname : isNameKey param.1 with _ | _
  · refine ⟨dropped, ?_⟩
    rw [appendNameParams, hname]
    rfl
  · have hserialize : canSerialize param = false := h.resolve_left (by simp [hname])
    refine ⟨true, ?_⟩
    rw [appendNameParams, hname, hserialize]
    rfl

/-- A parameter that does not fit ends the header. -/
theorem appendNameParams_of_not_fits (h : isEligible param = true)
    (hfits : fitsLimit limit header param = false) :
    appendNameParams limit (param :: rest) header dropped = ⟨header, dropped, false⟩ := by
  rw [isEligible, Bool.and_eq_true] at h
  rw [appendNameParams, h.1, h.2, hfits]
  rfl

theorem appendNameParams_of_fits (h : isEligible param = true)
    (hfits : fitsLimit limit header param = true) :
    appendNameParams limit (param :: rest) header dropped =
      appendNameParams limit rest (serializeParam header param) dropped := by
  rw [isEligible, Bool.and_eq_true] at h
  rw [appendNameParams, h.1, h.2, hfits]
  rfl

end Step

/-! ### All of them -/

/-- What the loop adds to the header. -/
theorem appendNameParams_spec (limit : Nat) (params : List (Bytes × Bytes)) (header : Bytes)
    (dropped : Bool) :
    ∃ kept, Kept limit header params kept
        (appendNameParams limit params header dropped).withinLimit ∧
      (appendNameParams limit params header dropped).header =
        header ++ MimeParams.folded (kept.map written) ∧
      (header.length ≤ limit →
        (appendNameParams limit params header dropped).header.length ≤ limit) := by
  induction params generalizing header dropped with
  | nil =>
      refine ⟨[], ⟨fun _ => rfl, fun h => ?_⟩, (List.append_nil header).symm, id⟩
      cases h
  | cons param rest ih =>
      rcases heligible : isEligible param with _ | _
      · obtain ⟨dropped', hstep⟩ :=
          @appendNameParams_of_not_eligible limit param rest header dropped heligible
        have hfilter : (param :: rest).filter isEligible = rest.filter isEligible :=
          List.filter_cons_of_neg (by simp [heligible])
        rw [hstep]
        obtain ⟨kept, hkept, hheader, hlength⟩ := ih header dropped'
        exact ⟨kept, ⟨fun h => (hkept.all h).trans hfilter.symm,
          fun h => hfilter ▸ hkept.untilFull h⟩, hheader, hlength⟩
      · have hfilter : (param :: rest).filter isEligible = param :: rest.filter isEligible :=
          List.filter_cons_of_pos heligible
        rcases hfits : fitsLimit limit header param with _ | _
        · rw [appendNameParams_of_not_fits rest header dropped heligible hfits]
          refine ⟨[], ⟨fun h => ?_, fun _ => ⟨param, rest.filter isEligible, hfilter, ?_⟩⟩,
            (List.append_nil header).symm, id⟩
          · cases h
          · have hstart : header ++ MimeParams.folded ([].map written) = header :=
              List.append_nil header
            rw [hstart, hfits]
        · rw [appendNameParams_of_fits rest header dropped heligible hfits]
          obtain ⟨kept, hkept, hheader, hlength⟩ := ih (serializeParam header param) dropped
          have hstart : serializeParam header param ++ MimeParams.folded (kept.map written) =
              header ++ MimeParams.folded ((param :: kept).map written) := by
            rw [serializeParam_eq, List.append_assoc, ← folded_append]
            rfl
          rw [hstart] at hheader
          refine ⟨param :: kept, ⟨fun h => ?_, fun h => ?_⟩, hheader, fun hle => hlength ?_⟩
          · rw [hfilter, hkept.all h]
          · obtain ⟨full, others, hothers, hfull⟩ := hkept.untilFull h
            rw [hstart] at hfull
            exact ⟨full, others, by rw [hfilter, hothers]; rfl, hfull⟩
          · simp only [fitsLimit, Bool.and_eq_true, decide_eq_true_eq] at hfits
            rw [length_serializeParam]
            omega

example : (appendNameParams 24 [(utf8Bytes "name", utf8Bytes "a\"b\\c")] (utf8Bytes "head: ")
    false).header = utf8Bytes "head: ;\r\n name=\"a\\\"b\\\\c\"" := by
  decide

/-- What is eligible can be written. -/
theorem writable_of_eligible {param : Bytes × Bytes} (h : isEligible param = true) :
    (written param).Writable := by
  rw [isEligible, Bool.and_eq_true, canSerialize, Bool.and_eq_true, List.all_eq_true] at h
  obtain ⟨hname, hkey, hvalue⟩ := h
  have hvalue : ∀ b ∈ param.2, (b ≠ 13 ∧ b ≠ 10) ∧ b ≠ 0 := by simpa using hvalue
  have htoken : ∀ b, isTokenByte b = MimeParams.isToken b := isTokenByte_eq
  refine ⟨?_, ⟨fun hmem => ?_, fun hmem => ?_⟩, fun htext => ?_⟩
  · rw [MimeParams.isTokenText, Bool.and_eq_true, List.all_eq_true]
    refine ⟨?_, fun b hb => htoken b ▸ hkey b hb⟩
    rcases hempty : param.1 with _ | ⟨b, text⟩
    · have hnone : isNameKey [] = false := by decide
      rw [hempty, hnone] at hname
      cases hname
    · simp [written, hempty]
  · exact (hvalue 13 hmem).1.1 rfl
  · exact (hvalue 10 hmem).1.2 rfl
  · have htext : isTokenParam param = true := htext
    rw [isTokenParam, Bool.and_eq_true, Bool.and_eq_true, List.all_eq_true] at htext
    rw [MimeParams.isTokenText, Bool.and_eq_true, List.all_eq_true]
    exact ⟨htext.1.2, fun b hb => htoken b ▸ htext.2 b hb⟩

theorem Kept.eligible {limit : Nat} {start : Bytes} {params kept : List (Bytes × Bytes)}
    {withinLimit : Bool} (h : Kept limit start params kept withinLimit) :
    ∀ param ∈ kept, isEligible param = true := by
  intro param hparam
  have hmem : param ∈ params.filter isEligible := by
    cases withinLimit with
    | true => rwa [← h.all rfl]
    | false =>
        obtain ⟨full, rest, hfilter, -⟩ := h.untilFull rfl
        rw [hfilter]
        exact List.mem_append_left _ hparam
  exact (List.mem_filter.mp hmem).2

/-! ## The header as a whole -/

def typeField (kept : List (Bytes × Bytes)) : MimeParams.Field :=
  ⟨utf8Bytes "Content-Type", utf8Bytes "application/octet-stream", kept.map written⟩

def dispositionField (kept : List (Bytes × Bytes)) : MimeParams.Field :=
  ⟨utf8Bytes "Content-Disposition", utf8Bytes "attachment", kept.map written⟩

/-- The headers that are written; the second only where the first has room for it. -/
def headerFields (withinLimit : Bool) (keptType keptDisposition : List (Bytes × Bytes)) :
    List MimeParams.Field :=
  typeField keptType :: if withinLimit then [dispositionField keptDisposition] else []

/-- The same as they are to be read. -/
def readFields (withinLimit : Bool) (keptType keptDisposition : List (Bytes × Bytes)) :
    List (Bytes × Bytes × List (Bytes × Bytes)) :=
  (utf8Bytes "Content-Type", utf8Bytes "application/octet-stream", keptType) ::
    if withinLimit then
      [(utf8Bytes "Content-Disposition", utf8Bytes "attachment", keptDisposition)]
    else []

theorem pair_written (kept : List (Bytes × Bytes)) :
    (kept.map written).map MimeParams.Param.pair = kept := by
  rw [List.map_map]
  exact List.map_id kept

theorem writable_field {name value : Bytes} {kept : List (Bytes × Bytes)}
    (hname : MimeParams.isTokenText name = true)
    (hvalue : (value.all fun b => b != 13 && b != 10 && b != 59 && !MimeParams.isLwsp b) = true)
    (hkept : ∀ param ∈ kept, isEligible param = true) :
    MimeParams.Field.Writable ⟨name, value, kept.map written⟩ := by
  refine ⟨hname, hvalue, ?_⟩
  intro p hp
  obtain ⟨param, hparam, rfl⟩ := List.mem_map.mp hp
  exact writable_of_eligible (hkept param hparam)

theorem writable_headerFields (withinLimit : Bool) {keptType keptDisposition : List (Bytes × Bytes)}
    (htype : ∀ param ∈ keptType, isEligible param = true)
    (hdisposition : ∀ param ∈ keptDisposition, isEligible param = true) :
    ∀ f ∈ headerFields withinLimit keptType keptDisposition, f.Writable := by
  intro f hf
  rcases List.mem_cons.mp hf with rfl | hf
  · exact writable_field (by decide) (by decide) htype
  · cases withinLimit with
    | true =>
        obtain rfl := List.mem_singleton.mp hf
        exact writable_field (by decide) (by decide) hdisposition
    | false => cases hf

theorem map_headerFields (withinLimit : Bool) (keptType keptDisposition : List (Bytes × Bytes)) :
    (headerFields withinLimit keptType keptDisposition).map
        (fun f => (f.name, f.value, f.params.map MimeParams.Param.pair)) =
      readFields withinLimit keptType keptDisposition := by
  cases withinLimit with
  | true =>
      simp only [headerFields, readFields, typeField, dispositionField, if_true, List.map_cons,
        List.map_nil, pair_written]
  | false =>
      simp only [headerFields, readFields, typeField, Bool.false_eq_true, if_false,
        List.map_cons, List.map_nil, pair_written]

/-- Which parameters are written, and where. -/
structure Synthesized (contentTypeParams dispositionParams keptType keptDisposition :
    List (Bytes × Bytes)) : Prop where
  type : Kept (MAX_HEADER_BYTES - dispositionHeader.length - 4) typeHeader contentTypeParams
    keptType (appendTypeParams contentTypeParams).withinLimit
  disposition : (appendTypeParams contentTypeParams).withinLimit = true →
    Kept (MAX_HEADER_BYTES - 4) ((appendTypeParams contentTypeParams).header ++ dispositionHeader)
      dispositionParams keptDisposition
      (synthesizeHeader contentTypeParams dispositionParams).withinLimit
  header : (synthesizeHeader contentTypeParams dispositionParams).header ++ headerEnd =
    MimeParams.block (headerFields (appendTypeParams contentTypeParams).withinLimit keptType
      keptDisposition)
  length : ((synthesizeHeader contentTypeParams dispositionParams).header ++ headerEnd).length ≤
    MAX_HEADER_BYTES

theorem typeHeader_eq :
    typeHeader = utf8Bytes "Content-Type" ++ [58, 32] ++ utf8Bytes "application/octet-stream" := by
  decide

theorem dispositionHeader_eq :
    dispositionHeader =
      [13, 10] ++ utf8Bytes "Content-Disposition" ++ [58, 32] ++ utf8Bytes "attachment" := by
  decide

theorem headerEnd_eq : headerEnd = [13, 10, 13, 10] := by decide

theorem exists_synthesized (contentTypeParams dispositionParams : List (Bytes × Bytes)) :
    ∃ keptType keptDisposition,
      Synthesized contentTypeParams dispositionParams keptType keptDisposition ∧
      (∀ param ∈ keptDisposition, isEligible param = true) := by
  obtain ⟨keptType, htype, hheader, hlength⟩ := appendNameParams_spec
    (MAX_HEADER_BYTES - dispositionHeader.length - 4) contentTypeParams typeHeader false
  have hlength := hlength (by decide)
  have hlimits : dispositionHeader.length = 33 ∧ headerEnd.length = 4 := by decide
  have hmax : MAX_HEADER_BYTES = 8192 := rfl
  change (appendTypeParams contentTypeParams).header = _ at hheader
  change (appendTypeParams contentTypeParams).header.length ≤ _ at hlength
  rcases hwithin : (appendTypeParams contentTypeParams).withinLimit with _ | _
  · have hsynthesized : synthesizeHeader contentTypeParams dispositionParams =
        appendTypeParams contentTypeParams := by
      simp [synthesizeHeader, hwithin]
    refine ⟨keptType, [], ⟨htype, fun h => ?_, ?_, ?_⟩, fun _ h => by cases h⟩
    · rw [hwithin] at h
      cases h
    · rw [hsynthesized, hwithin, hheader, typeHeader_eq, headerEnd_eq]
      simp [MimeParams.block, MimeParams.Field.text, headerFields, typeField]
    · rw [hsynthesized, List.length_append]
      omega
  · have hsynthesized : synthesizeHeader contentTypeParams dispositionParams =
        appendNameParams (MAX_HEADER_BYTES - 4) dispositionParams
          ((appendTypeParams contentTypeParams).header ++ dispositionHeader)
          (appendTypeParams contentTypeParams).dropped := by
      simp [synthesizeHeader, hwithin]
    obtain ⟨keptDisposition, hdisposition, hheader', hlength'⟩ := appendNameParams_spec
      (MAX_HEADER_BYTES - 4) dispositionParams
      ((appendTypeParams contentTypeParams).header ++ dispositionHeader)
      (appendTypeParams contentTypeParams).dropped
    rw [← hsynthesized] at hdisposition hheader' hlength'
    refine ⟨keptType, keptDisposition, ⟨htype, fun _ => hdisposition, ?_, ?_⟩,
      hdisposition.eligible⟩
    · rw [hheader', hwithin, hheader, typeHeader_eq, dispositionHeader_eq, headerEnd_eq]
      simp [MimeParams.block, MimeParams.Field.text, headerFields, typeField, dispositionField]
    · have hfull := hlength' (by rw [List.length_append]; omega)
      rw [List.length_append]
      omega

/-- **The header says what was kept.**  It fits, its only line breaks are those of the
    folds and of the ends of its fields, and a reader gets the parameters that were
    kept, in order and with their exact values; any other parameter leaves the header
    as it is. -/
theorem synthesizeHeader_faithful (contentTypeParams dispositionParams : List (Bytes × Bytes)) :
    (∃ keptType keptDisposition,
      Synthesized contentTypeParams dispositionParams keptType keptDisposition ∧
      (∀ param ∈ keptType ++ keptDisposition,
        13 ∉ (written param).text ∧ 10 ∉ (written param).text) ∧
      MimeParams.readBlock
          ((synthesizeHeader contentTypeParams dispositionParams).header ++ headerEnd) =
        some (readFields (appendTypeParams contentTypeParams).withinLimit keptType
          keptDisposition)) ∧
    ∀ (limit : Nat) (param : Bytes × Bytes) (rest : List (Bytes × Bytes)) (header : Bytes)
      (dropped : Bool),
      (isEligible param = false → ∃ dropped',
        appendNameParams limit (param :: rest) header dropped =
          appendNameParams limit rest header dropped') ∧
      (isEligible param = true → fitsLimit limit header param = false →
        appendNameParams limit (param :: rest) header dropped = ⟨header, dropped, false⟩) := by
  constructor
  · obtain ⟨keptType, keptDisposition, hsynthesized, hdisposition⟩ :=
      exists_synthesized contentTypeParams dispositionParams
    have htype := hsynthesized.type.eligible
    refine ⟨keptType, keptDisposition, hsynthesized, fun param hparam => ?_, ?_⟩
    · have hwritable : (written param).Writable := by
        rcases List.mem_append.mp hparam with hparam | hparam
        · exact writable_of_eligible (htype param hparam)
        · exact writable_of_eligible (hdisposition param hparam)
      exact ⟨MimeParams.not_mem_text hwritable (.inl rfl),
        MimeParams.not_mem_text hwritable (.inr rfl)⟩
    · rw [hsynthesized.header,
        MimeParams.readBlock_block (writable_headerFields _ htype hdisposition),
        map_headerFields]
  · intro limit param rest header dropped
    exact ⟨appendNameParams_of_not_eligible rest header dropped,
      appendNameParams_of_not_fits rest header dropped⟩

theorem safeName_sanitizeAttachmentFilename (libs : ContentLibs) (raw : String) (idx : UInt64) :
    SafeName (sanitizeAttachmentFilename libs idx.toNat raw).1.toList := by
  have hsafe := safeName_sanitizeFilename libs
    (sanitizeHeader libs raw ("attachment[" ++ toString idx.toNat ++ "]:filename")).1 idx
  unfold sanitizeAttachmentFilename
  dsimp only
  exact hsafe

/-- The name that the mail parser finds in the header is made safe. -/
theorem safeName_attachmentFilenameFromParams {libs : ContentLibs}
    {contentTypeParams dispositionParams : List (Bytes × Bytes)} {idx : UInt64} {name : String}
    (h : (attachmentFilenameFromParams libs contentTypeParams dispositionParams idx.toNat).1 =
      some name) : SafeName name.toList := by
  unfold attachmentFilenameFromParams at h
  generalize synthesizeHeader contentTypeParams dispositionParams = synthesized at h
  dsimp only at h
  generalize libs.safeParse (synthesized.header ++ headerEnd) = parsed at h
  by_cases hwithin : synthesized.withinLimit = true
  · simp only [hwithin, Bool.not_true, Bool.false_eq_true, if_false] at h
    rcases parsed with ⟨⟨⟩⟩ | _ | message
    · cases h
    · cases h
    · dsimp only at h
      generalize (message.parts.head?.bind Part.attachmentName).filter (· != "") = found at h
      cases found with
      | none => cases h
      | some raw =>
          simp only [Option.some.injEq] at h
          rw [← h]
          exact safeName_sanitizeAttachmentFilename libs raw idx
  · simp only [Bool.not_eq_true] at hwithin
    simp only [hwithin, Bool.not_false, if_true] at h
    cases h

end RustyImap.ContentParse
