import RustyImap.AuditWorker
import RustyImap.ValueCodec

/-!
# The lines of the audit log (`rimap-audit/src/record/mod.rs`, `record/ids.rs`)

The serializers and deserializers of the record schema, as codecs in the words
of their `serde` attributes: a field is required, may be missing, has a default,
or is left out when it is empty.  A line is the tree of its JSON text; white
space, escapes and the text of errors are left out.

What the `time` and `ulid` crates and the float routines of `serde_json` do is a
parameter (`Formats`), and `Formats.Documented` says what is known of it.
-/

namespace RustyImap.Record

open JsonCodec JsonCodec.Codec JsonCodec.Fields
open AuditWorker (padded)

/-! ## Values without parts -/

def string : Codec String := leaf .string Json.asStr

def bool : Codec Bool := leaf .bool Json.asBool

/-- Unsigned integers below `bound`. -/
def uint {α : Type} (bound : Nat) (build : Nat → α) (value : α → Nat) : Codec α :=
  leaf (fun x => .number (toString (value x))) fun
    | .number literal => ((digitsToNat literal.toList).filter fun n => n < bound).map build
    | _ => none

def u16 : Codec UInt16 := uint (2 ^ 16) UInt16.ofNat UInt16.toNat

def u32 : Codec UInt32 := uint (2 ^ 32) UInt32.ofNat UInt32.toNat

def u64 : Codec UInt64 := uint (2 ^ 64) UInt64.ofNat UInt64.toNat

/-- A type that is written and read as a string. -/
def text {α : Type} (asStr : α → String) (fromStr : String → Option α) : Codec α :=
  leaf (fun x => .string (asStr x)) fun
    | .string s => fromStr s
    | _ => none

/-- A derived enumeration: a variant is its name, or an object with the name as
    its only key and nothing under it. -/
def unitEnum {α : Type} (all : List α) (name : α → String) : Codec α :=
  leaf (fun x => .string (name x)) fun
    | .string s => all.find? fun x => name x == s
    | .object [(s, .null)] => all.find? fun x => name x == s
    | .object [(s, .object [])] => all.find? fun x => name x == s
    | _ => none

theorem lawful_string : string.Lawful := lawful_leaf fun _ => rfl

theorem lawful_bool : bool.Lawful := lawful_leaf fun _ => rfl

/-- Decimal digits are read as the number that they are of, with or without
    zeros before them. -/
theorem digitsToNat_zeros (k n : Nat) :
    digitsToNat (List.replicate k '0' ++ Nat.toDigits 10 n) = some n := by
  have hzeros : (List.replicate k '0').foldl
      (fun n c => 10 * n + (c.toNat - '0'.toNat)) 0 = 0 := by
    induction k with
    | zero => rfl
    | succ k ih =>
        rw [List.replicate_succ, List.foldl_cons]
        exact ih
  have hall : (List.replicate k '0' ++ Nat.toDigits 10 n).all
      (fun c => '0' ≤ c && c ≤ '9') = true := by
    refine List.all_eq_true.mpr fun c hc => ?_
    rcases List.mem_append.mp hc with hc | hc
    · rw [List.eq_of_mem_replicate hc]
      rfl
    · have hdigit : c.isDigit = true := Nat.isDigit_of_mem_toDigits (by decide) (by decide) hc
      simpa [Char.isDigit, Char.le_def] using hdigit
  have hne : (List.replicate k '0' ++ Nat.toDigits 10 n).isEmpty = false := by
    simp [Nat.toDigits_ne_nil]
  have hvalue := Nat.ofDigitChars_ten_toDigits (n := n)
  rw [Nat.ofDigitChars_eq_foldl] at hvalue
  unfold digitsToNat
  rw [hne, hall]
  simp only [Bool.not_true, Bool.or_self, Bool.false_eq_true, if_false]
  rw [List.foldl_append, hzeros, hvalue]

theorem digitsToNat_toString (n : Nat) : digitsToNat (toString n).toList = some n := by
  have hdigits : (toString n).toList = Nat.toDigits 10 n := Nat.toList_repr
  rw [hdigits]
  exact digitsToNat_zeros 0 n

theorem lawful_uint {α : Type} {bound : Nat} {build : Nat → α} {value : α → Nat}
    (hbound : ∀ x, value x < bound) (hbuild : ∀ x, build (value x) = x) :
    (uint bound build value).Lawful := by
  refine lawful_leaf fun x => ?_
  simp only [digitsToNat_toString, Option.filter_some, hbound x, decide_true, if_true,
    Option.map_some, hbuild x]

theorem lawful_u16 : u16.Lawful := lawful_uint UInt16.toNat_lt fun _ => UInt16.ofNat_toNat

theorem lawful_u32 : u32.Lawful := lawful_uint UInt32.toNat_lt fun _ => UInt32.ofNat_toNat

theorem lawful_u64 : u64.Lawful := lawful_uint UInt64.toNat_lt fun _ => UInt64.ofNat_toNat

theorem lawful_text {α : Type} {asStr : α → String} {fromStr : String → Option α}
    (h : ∀ x, fromStr (asStr x) = some x) : (text asStr fromStr).Lawful := lawful_leaf h

theorem lawful_unitEnum {α : Type} {all : List α} {name : α → String}
    (h : ∀ x, (all.find? fun y => name y == name x) = some x) : (unitEnum all name).Lawful :=
  lawful_leaf h

/-! ## Enumerations -/

def Posture.all : List Posture := [.readonly, .draftSafe, .full, .destructive]

def Posture.fromStr (s : String) : Option Posture := Posture.all.find? fun p => p.asStr == s

def posture : Codec Posture := unitEnum Posture.all Posture.asStr

def PostureEffective.asStr : PostureEffective → String
  | .account p => p.asStr
  | .infrastructure => "infrastructure"

def PostureEffective.fromStr (s : String) : Option PostureEffective :=
  if s = "infrastructure" then some .infrastructure else (Posture.fromStr s).map .account

def postureEffective : Codec PostureEffective :=
  text PostureEffective.asStr PostureEffective.fromStr

def toolName : Codec ToolName := text ToolName.asStr ToolName.fromStr

def ErrorCode.all : List ErrorCode :=
  [.invalidInput, .postureDenied, .rateLimited, .circuitOpen, .notFound, .imapProtocol,
   .smtpProtocol, .tls, .auth, .connectionLost, .timeout, .attachmentTooLarge, .protectedFolder,
   .expungeDenied, .config, .internal, .noAccount, .unknownAccount, .cancelled,
   .uidValidityChanged]

def ErrorCode.asStr : ErrorCode → String
  | .invalidInput => "ERR_INVALID_INPUT"
  | .postureDenied => "ERR_POSTURE_DENIED"
  | .rateLimited => "ERR_RATE_LIMITED"
  | .circuitOpen => "ERR_CIRCUIT_OPEN"
  | .notFound => "ERR_NOT_FOUND"
  | .imapProtocol => "ERR_IMAP_PROTOCOL"
  | .smtpProtocol => "ERR_SMTP_PROTOCOL"
  | .tls => "ERR_TLS"
  | .auth => "ERR_AUTH"
  | .connectionLost => "ERR_CONNECTION_LOST"
  | .timeout => "ERR_TIMEOUT"
  | .attachmentTooLarge => "ERR_ATTACHMENT_TOO_LARGE"
  | .protectedFolder => "ERR_PROTECTED_FOLDER"
  | .expungeDenied => "ERR_EXPUNGE_DENIED"
  | .config => "ERR_CONFIG"
  | .internal => "ERR_INTERNAL"
  | .noAccount => "ERR_NO_ACCOUNT"
  | .unknownAccount => "ERR_UNKNOWN_ACCOUNT"
  | .cancelled => "ERR_CANCELLED"
  | .uidValidityChanged => "ERR_UID_VALIDITY_CHANGED"

def ErrorCode.fromStr (s : String) : Option ErrorCode :=
  ErrorCode.all.find? fun code => ErrorCode.asStr code == s

def errorCode : Codec ErrorCode := text ErrorCode.asStr ErrorCode.fromStr

def processEndReason : Codec ProcessEndReason :=
  unitEnum [.signalInt, .signalTerm, .eof, .error] fun
    | .signalInt => "signal_int"
    | .signalTerm => "signal_term"
    | .eof => "eof"
    | .error => "error"

def verdictSource : Codec VerdictSource :=
  unitEnum [.account, .inherited] fun
    | .account => "account"
    | .inherited => "inherited"

def folderSource : Codec FolderSource :=
  unitEnum [.account, .inherited, .discovered] fun
    | .account => "account"
    | .inherited => "inherited"
    | .discovered => "discovered"

def specialUseDiscovery : Codec SpecialUseDiscovery :=
  unitEnum [.notRun, .ran] fun
    | .notRun => "not_run"
    | .ran => "ran"

def authResult : Codec AuthResult :=
  unitEnum [.success, .failure] fun
    | .success => "success"
    | .failure => "failure"

def credentialSource : Codec Config.CredentialSource :=
  unitEnum [.keyring, .legacyKeyring, .envVar] fun
    | .keyring => "keyring"
    | .legacyKeyring => "legacy_keyring"
    | .envVar => "env_var"

def toolStatus : Codec ToolStatus :=
  unitEnum [.ok, .error, .cancelled] fun
    | .ok => "ok"
    | .error => "error"
    | .cancelled => "cancelled"

def WarningCode.all : List WarningCode :=
  [.unicodeZeroWidthStripped, .unicodeBidiOverrideStripped, .unicodeC0C1Stripped,
   .parseHeaderSmugglingBlocked, .parseMimeTypeMismatch, .parseBodystructureTypeMismatch,
   .parseAttachmentPolyglot, .parseBodyTruncated, .parseMimeDepthExceeded,
   .parseMimePartCountExceeded, .parseHeaderCountExceeded, .parseAttachmentFilenameRewritten,
   .htmlHiddenContentDetected, .htmlLinkTextHrefMismatch, .htmlScriptStripped, .htmlStyleStripped,
   .htmlRemoteImageStripped, .htmlAnchorUnparsableHref, .lookalikeMixedScript,
   .lookalikeHomographDomain, .lookalikeIdnPunycode, .lookalikeFilenameExtensionSpoof,
   .serverNonAtomicMoveFallback, .serverFolderWideExpungeDataLoss]

/-- The variant in `snake_case`. -/
def WarningCode.name : WarningCode → String
  | .unicodeZeroWidthStripped => "unicode_zero_width_stripped"
  | .unicodeBidiOverrideStripped => "unicode_bidi_override_stripped"
  | .unicodeC0C1Stripped => "unicode_c0_c1_stripped"
  | .parseHeaderSmugglingBlocked => "parse_header_smuggling_blocked"
  | .parseMimeTypeMismatch => "parse_mime_type_mismatch"
  | .parseBodystructureTypeMismatch => "parse_bodystructure_type_mismatch"
  | .parseAttachmentPolyglot => "parse_attachment_polyglot"
  | .parseBodyTruncated => "parse_body_truncated"
  | .parseMimeDepthExceeded => "parse_mime_depth_exceeded"
  | .parseMimePartCountExceeded => "parse_mime_part_count_exceeded"
  | .parseHeaderCountExceeded => "parse_header_count_exceeded"
  | .parseAttachmentFilenameRewritten => "parse_attachment_filename_rewritten"
  | .htmlHiddenContentDetected => "html_hidden_content_detected"
  | .htmlLinkTextHrefMismatch => "html_link_text_href_mismatch"
  | .htmlScriptStripped => "html_script_stripped"
  | .htmlStyleStripped => "html_style_stripped"
  | .htmlRemoteImageStripped => "html_remote_image_stripped"
  | .htmlAnchorUnparsableHref => "html_anchor_unparsable_href"
  | .lookalikeMixedScript => "lookalike_mixed_script"
  | .lookalikeHomographDomain => "lookalike_homograph_domain"
  | .lookalikeIdnPunycode => "lookalike_idn_punycode"
  | .lookalikeFilenameExtensionSpoof => "lookalike_filename_extension_spoof"
  | .serverNonAtomicMoveFallback => "server_non_atomic_move_fallback"
  | .serverFolderWideExpungeDataLoss => "server_folder_wide_expunge_data_loss"

def warningCode : Codec WarningCode := unitEnum WarningCode.all WarningCode.name

theorem lawful_posture : posture.Lawful := lawful_unitEnum fun x => by cases x <;> decide

theorem lawful_postureEffective : postureEffective.Lawful :=
  lawful_text fun x => by
    cases x with
    | account p => cases p <;> decide
    | infrastructure => decide

theorem lawful_toolName : toolName.Lawful := lawful_text ToolName.fromStr_asStr

theorem lawful_errorCode : errorCode.Lawful := lawful_text fun x => by cases x <;> decide

theorem lawful_processEndReason : processEndReason.Lawful :=
  lawful_unitEnum fun x => by cases x <;> decide

theorem lawful_verdictSource : verdictSource.Lawful :=
  lawful_unitEnum fun x => by cases x <;> decide

theorem lawful_folderSource : folderSource.Lawful :=
  lawful_unitEnum fun x => by cases x <;> decide

theorem lawful_specialUseDiscovery : specialUseDiscovery.Lawful :=
  lawful_unitEnum fun x => by cases x <;> decide

theorem lawful_authResult : authResult.Lawful := lawful_unitEnum fun x => by cases x <;> decide

theorem lawful_credentialSource : credentialSource.Lawful :=
  lawful_unitEnum fun x => by cases x <;> decide

theorem lawful_toolStatus : toolStatus.Lawful := lawful_unitEnum fun x => by cases x <;> decide

theorem lawful_warningCode : warningCode.Lawful := lawful_unitEnum fun x => by cases x <;> decide

/-! ## Times -/

/-- Days since 1970-01-01. -/
def daysFromCivil (year : Int) (month day : Nat) : Int :=
  let y := if month ≤ 2 then year - 1 else year
  let era := y / 400
  let yearOfEra := y - era * 400
  let monthFromMarch := if month ≤ 2 then month + 9 else month - 3
  let dayOfYear : Int := ((153 * monthFromMarch + 2) / 5 + day - 1 : Nat)
  let dayOfEra := yearOfEra * 365 + yearOfEra / 4 - yearOfEra / 100 + dayOfYear
  era * 146097 + dayOfEra - 719468

/-- Nanoseconds since 1970-01-01T00:00:00Z. -/
def OffsetDateTime.instant (dt : OffsetDateTime) : Int :=
  (daysFromCivil dt.year dt.month dt.day * 86400 + dt.hour * 3600 + dt.minute * 60 + dt.second
    - dt.offset) * 1000000000 + dt.nanosecond

/-- The same local time at another offset. -/
def OffsetDateTime.withOffset (dt : OffsetDateTime) (offset : Int) : OffsetDateTime :=
  { dt with offset := offset }

/-- The year to four places; of a negative one the sign is a place. -/
def paddedYear (year : Int) : String :=
  if year < 0 then "-" ++ padded 3 year.natAbs else padded 4 year.toNat

/-- `Serialize for Timestamp`: the local time, and a `Z`. -/
def Timestamp.toText (ts : Timestamp) : String :=
  let dt := ts.dateTime
  paddedYear dt.year ++ "-" ++ padded 2 dt.month ++ "-" ++ padded 2 dt.day ++ "T" ++
    padded 2 dt.hour ++ ":" ++ padded 2 dt.minute ++ ":" ++ padded 2 dt.second ++ "." ++
    padded 3 (dt.nanosecond / 1000000) ++ "Z"

/-! ## What stands outside the repository -/

structure Formats where
  rfc3339 : String → Option OffsetDateTime
  ulidToString : ProcessId → String
  ulidFromString : String → Option ProcessId
  readFloat : String → Option String

/-- RFC 3339 has a year of four digits and no sign, and reads a time in UTC as
    such; a ULID is read back from its own text. -/
structure Formats.Documented (fmt : Formats) : Prop where
  rfc3339_utc : ∀ ts : Timestamp, 0 ≤ ts.dateTime.year →
    fmt.rfc3339 ts.toText = some (ts.dateTime.withOffset 0)
  rfc3339_year : ∀ s dt, fmt.rfc3339 s = some dt → 0 ≤ dt.year
  rfc3339_sign : ∀ s, s.toList.head? = some '-' → fmt.rfc3339 s = none
  ulid : ∀ id, fmt.ulidFromString (fmt.ulidToString id) = some id

/-- A time is the instant that it denotes. -/
def timestamp (fmt : Formats) : Codec Timestamp where
  encode ts := .string ts.toText
  decode
    | .string s => (fmt.rfc3339 s).map Timestamp.fromOffset
    | _ => none
  Says v w := ∃ s dt s' dt', v = .string s ∧ fmt.rfc3339 s = some dt ∧
    w = .string s' ∧ fmt.rfc3339 s' = some dt' ∧ dt.instant = dt'.instant
  Plain v := ∀ s dt, v = .string s → fmt.rfc3339 s = some dt →
    dt.offset = 0 ∧ dt.nanosecond % 1000000 = 0
  Faithful ts := ts.dateTime.offset = 0 ∧ 0 ≤ ts.dateTime.year

theorem truncateNanosecond_of_lt {ns : Nat} (h : ns < 1000000000) :
    truncateNanosecond ns = ns / 1000000 * 1000000 := by
  unfold truncateNanosecond
  rw [Nat.min_eq_left (by omega)]

theorem Timestamp.ext_dateTime {ts ts' : Timestamp} (h : ts.dateTime = ts'.dateTime) :
    ts = ts' := by
  cases ts
  cases ts'
  simpa using h

theorem Timestamp.fromOffset_dateTime (ts : Timestamp) (offset : Int) :
    (Timestamp.fromOffset (ts.dateTime.withOffset offset)).dateTime =
      ts.dateTime.withOffset offset := by
  have hns : truncateNanosecond ts.dateTime.nanosecond = ts.dateTime.nanosecond := by
    rw [truncateNanosecond_of_lt ts.dateTime.htime.2.2.2]
    have := ts.millis
    omega
  simp only [Timestamp.fromOffset, OffsetDateTime.withOffset, hns]

theorem OffsetDateTime.withOffset_self {dt : OffsetDateTime} {offset : Int}
    (h : dt.offset = offset) : dt.withOffset offset = dt := by
  subst h
  rfl

/-- Printed without its offset and its finer digits, a time keeps its instant
    when it has none. -/
theorem OffsetDateTime.instant_fromOffset_iff (dt : OffsetDateTime) :
    dt.instant = ((Timestamp.fromOffset dt).dateTime.withOffset 0).instant ↔
      dt.offset = 0 ∧ dt.nanosecond % 1000000 = 0 := by
  have hlt : dt.nanosecond < 1000000000 := dt.htime.2.2.2
  have htrunc := truncateNanosecond_of_lt hlt
  simp only [OffsetDateTime.instant, OffsetDateTime.withOffset, Timestamp.fromOffset, htrunc]
  generalize daysFromCivil dt.year dt.month dt.day = days
  constructor
  · intro h
    constructor <;> omega
  · rintro ⟨hoffset, hmillis⟩
    rw [hoffset]
    omega

theorem head_toText {ts : Timestamp} (h : ts.dateTime.year < 0) :
    ts.toText.toList.head? = some '-' := by
  simp [Timestamp.toText, paddedYear, h]

theorem lawful_timestamp {fmt : Formats} (h : fmt.Documented) : (timestamp fmt).Lawful where
  decode_encode ts := by
    have hread : (timestamp fmt).decode ((timestamp fmt).encode ts) =
        (fmt.rfc3339 ts.toText).map Timestamp.fromOffset := rfl
    have hfaithful : (timestamp fmt).Faithful ts ↔
        ts.dateTime.offset = 0 ∧ 0 ≤ ts.dateTime.year := Iff.rfl
    rw [hread, hfaithful]
    by_cases hyear : 0 ≤ ts.dateTime.year
    · rw [h.rfc3339_utc ts hyear, Option.map_some, Option.some.injEq]
      constructor
      · intro heq
        have hdt := congrArg Timestamp.dateTime heq
        rw [Timestamp.fromOffset_dateTime] at hdt
        exact ⟨(congrArg OffsetDateTime.offset hdt).symm, hyear⟩
      · rintro ⟨hoffset, -⟩
        refine Timestamp.ext_dateTime ?_
        rw [Timestamp.fromOffset_dateTime, OffsetDateTime.withOffset_self hoffset]
    · refine iff_of_false ?_ fun hboth => hyear hboth.2
      rw [h.rfc3339_sign _ (head_toText (by omega))]
      exact fun hnone => by cases hnone
  says_iff v ts hts := by
    cases v with
    | string s =>
        obtain ⟨dt, hdt, rfl⟩ := Option.map_eq_some_iff.mp hts
        have hyear : 0 ≤ (Timestamp.fromOffset dt).dateTime.year := h.rfc3339_year s dt hdt
        have hback := h.rfc3339_utc _ hyear
        have hiff := dt.instant_fromOffset_iff
        constructor
        · rintro ⟨s₁, dt₁, s', dt', hs₁, hdt₁, hs', hdt', hinstant⟩ s₂ dt₂ hs₂ hdt₂
          obtain rfl := Json.string.inj hs₁
          obtain rfl := Json.string.inj hs₂
          obtain rfl := Json.string.inj hs'
          rw [hdt] at hdt₁ hdt₂
          rw [hback] at hdt'
          obtain rfl := Option.some.inj hdt₁
          obtain rfl := Option.some.inj hdt₂
          obtain rfl := Option.some.inj hdt'
          exact hiff.mp hinstant
        · intro hplain
          exact ⟨s, dt, _, _, rfl, hdt, rfl, hback, hiff.mpr (hplain s dt rfl hdt)⟩
    | _ => cases hts

/-! ## Identifiers and paths -/

def seq : Codec Seq := u64

def processId (fmt : Formats) : Codec ProcessId := text fmt.ulidToString fmt.ulidFromString

theorem lawful_processId {fmt : Formats} (h : fmt.Documented) : (processId fmt).Lawful :=
  lawful_text h.ulid

def PathBuf.isUtf8 : PathBuf → Bool
  | .utf8 _ => true
  | .other _ => false

/-- `PathBuf`; the serializer fails where the path is not UTF-8 (`printable`),
    so what stands here for that case is never written. -/
def path : Codec PathBuf where
  encode
    | .utf8 s => .string s
    | .other _ => .null
  decode
    | .string s => some (.utf8 s)
    | _ => none
  Says v w := ∃ s, v = .string s ∧ w = .string s
  Plain _ := True
  Faithful p := p.isUtf8 = true

theorem lawful_path : path.Lawful where
  decode_encode p := by cases p <;> simp [path, PathBuf.isUtf8]
  says_iff v p hp := by
    cases v with
    | string s =>
        obtain rfl := Option.some.inj hp
        exact iff_of_true ⟨s, rfl, rfl⟩ trivial
    | _ => cases hp

/-! ## The attributes of a field -/

/-- No attribute, and not an `Option`. -/
def required {α : Type} (key : String) (c : Codec α) : Fields α := field key c none fun _ => false

/-- No attribute, and an `Option`: what is missing is `None`. -/
def optional {α : Type} (key : String) (c : Codec α) : Fields (Option α) :=
  field key c.option (some none) fun _ => false

/-- `skip_serializing_if = "Option::is_none"`. -/
def skipNone {α : Type} (key : String) (c : Codec α) : Fields (Option α) :=
  field key c.option (some none) Option.isNone

/-- `default`. -/
def defaulted {α : Type} (key : String) (c : Codec α) (default : α) : Fields α :=
  field key c (some default) fun _ => false

/-- `default, skip_serializing_if = "Vec::is_empty"`. -/
def skipEmpty {α : Type} (key : String) (c : Codec α) : Fields (List α) :=
  field key c.list (some []) List.isEmpty

section

variable {α : Type} {key : String} {c : Codec α}

theorem lawful_required (h : c.Lawful) : (required key c).Lawful :=
  lawful_field h fun _ hskip => by cases hskip

theorem lawful_optional (h : c.Lawful) (hnull : ∀ x, c.encode x ≠ .null) :
    (optional key c).Lawful :=
  lawful_field (lawful_option h hnull) fun _ hskip => by cases hskip

theorem lawful_skipNone (h : c.Lawful) (hnull : ∀ x, c.encode x ≠ .null) :
    (skipNone key c).Lawful :=
  lawful_field (lawful_option h hnull) fun _ hskip => by rw [Option.isNone_iff_eq_none.mp hskip]

theorem lawful_defaulted {default : α} (h : c.Lawful) : (defaulted key c default).Lawful :=
  lawful_field h fun _ hskip => by cases hskip

theorem lawful_skipEmpty (h : c.Lawful) : (skipEmpty key c).Lawful :=
  lawful_field (lawful_list h) fun _ hskip => by rw [List.isEmpty_iff.mp hskip]

/-- Of a field that is always written nothing is lost but what its value loses. -/
theorem plain_required_iff {i : String → List Json} :
    (required key c).Plain i ↔ ∀ v ∈ i key, c.Plain v :=
  forall₂_congr fun _ _ => and_iff_left fun _ _ => rfl

theorem plain_defaulted_iff {i : String → List Json} {default : α} :
    (defaulted key c default).Plain i ↔ ∀ v ∈ i key, c.Plain v :=
  forall₂_congr fun _ _ => and_iff_left fun _ _ => rfl

/-- What is lost of a field that is left out for `None` is a `null`. -/
theorem plain_skipNone_iff {i : String → List Json} :
    (skipNone key c).Plain i ↔ ∀ v ∈ i key, v ≠ .null ∧ c.Plain v := by
  refine forall₂_congr fun v _ => ?_
  by_cases hv : v = .null
  · subst hv
    refine iff_of_false ?_ fun hne => hne.1 rfl
    rintro ⟨-, hskip⟩
    exact absurd (hskip none rfl).symm Bool.false_ne_true
  · have hplain : c.option.Plain v ↔ c.Plain v := or_iff_right hv
    have hskip : ∀ x, c.option.decode v = some x → x.isNone = false := by
      intro x hx
      rw [option_decode_of_ne_null hv] at hx
      obtain ⟨y, -, rfl⟩ := Option.map_eq_some_iff.mp hx
      rfl
    rw [hplain]
    exact ⟨fun h => ⟨hv, h.1⟩, fun h => ⟨h.2, hskip⟩⟩

/-- What is lost of one that is left out when it is empty is a `[]`. -/
theorem plain_skipEmpty_iff {i : String → List Json} :
    (skipEmpty key c).Plain i ↔ ∀ v ∈ i key, v ≠ .array [] ∧ c.list.Plain v := by
  refine forall₂_congr fun v _ => ?_
  by_cases hv : v = .array []
  · subst hv
    refine iff_of_false ?_ fun hne => hne.1 rfl
    rintro ⟨-, hskip⟩
    exact absurd (hskip [] rfl).symm Bool.false_ne_true
  · have hskip : ∀ xs, c.list.decode v = some xs → xs.isEmpty = false := by
      intro xs hxs
      cases v with
      | array items =>
          have hitems : items.mapM c.decode = some xs := hxs
          rw [List.isEmpty_eq_false_iff, Ne, ← ReadLists.eq_nil_iff_of_mapM hitems]
          rintro rfl
          exact hv rfl
      | _ => cases hxs
    exact ⟨fun h => ⟨hv, h.1⟩, fun h => ⟨h.2, hskip⟩⟩

end

/-! ## Records in records -/

def accountSummary : Fields AccountSummary :=
  ((required "name" string).and
    ((required "posture" posture).and
    (required "imap_host" string))).iso
    (fun (name, posture, imapHost) => ⟨name, posture, imapHost⟩)
    fun a => (a.name, a.posture, a.imapHost)

def toolVerdict : Fields ToolVerdict :=
  ((required "tool" toolName).and
    ((required "allow" bool).and
    (required "source" verdictSource))).iso
    (fun (tool, allow, source) => ⟨tool, allow, source⟩)
    fun v => (v.tool, v.allow, v.source)

def folderEntry : Fields FolderEntry :=
  ((required "folder" string).and
    (required "source" folderSource)).iso
    (fun (folder, source) => ⟨folder, source⟩)
    fun e => (e.folder, e.source)

def accountToolMatrix : Fields AccountToolMatrix :=
  ((required "account" string).and
    ((required "posture" posture).and
    ((defaulted "tools" toolVerdict.struct.list []).and
    ((defaulted "protected_folders" folderEntry.struct.list []).and
    ((defaulted "special_use_discovery" specialUseDiscovery .notRun).and
    (defaulted "expunge_folders" folderEntry.struct.list [])))))).iso
    (fun (account, posture, tools, protectedFolders, specialUseDiscovery, expungeFolders) =>
      ⟨account, posture, tools, protectedFolders, specialUseDiscovery, expungeFolders⟩)
    fun m => (m.account, m.posture, m.tools, m.protectedFolders, m.specialUseDiscovery,
      m.expungeFolders)

def attachmentProvenance : Fields AttachmentProvenance :=
  ((required "filename" string).and
    (required "bytes" u64)).iso
    (fun (filename, bytes) => ⟨filename, bytes⟩)
    fun a => (a.filename, a.bytes)

def resultSummary : Fields ResultSummary :=
  ((defaulted "message_ids_returned" string.list []).and
    ((defaulted "bytes_returned" u64 0).and
    ((defaulted "truncated" bool false).and
    ((defaulted "security_warnings_emitted" warningCode.list []).and
    ((skipNone "artifact_path" string).and
    ((skipNone "artifact_sha256" string).and
    ((skipNone "artifact_bytes" u64).and
    ((skipEmpty "uids_exported" u32).and
    ((skipEmpty "uids_failed" u32).and
    (skipEmpty "attachments_sent" attachmentProvenance.struct)))))))))).iso
    (fun (messageIdsReturned, bytesReturned, truncated, securityWarningsEmitted, artifactPath,
        artifactSha256, artifactBytes, uidsExported, uidsFailed, attachmentsSent) =>
      ⟨messageIdsReturned, bytesReturned, truncated, securityWarningsEmitted, artifactPath,
        artifactSha256, artifactBytes, uidsExported, uidsFailed, attachmentsSent⟩)
    fun r => (r.messageIdsReturned, r.bytesReturned, r.truncated, r.securityWarningsEmitted,
      r.artifactPath, r.artifactSha256, r.artifactBytes, r.uidsExported, r.uidsFailed,
      r.attachmentsSent)

def provenance : Fields Provenance :=
  ((required "window_seconds" u32).and
    (required "message_ids_recently_read" string.list)).iso
    (fun (windowSeconds, messageIdsRecentlyRead) => ⟨windowSeconds, messageIdsRecentlyRead⟩)
    fun p => (p.windowSeconds, p.messageIdsRecentlyRead)

/-! ## Payloads -/

def processStart (fmt : Formats) : Fields ProcessStart :=
  ((required "version" string).and
    ((required "git_commit" string).and
    ((skipNone "posture" posture).and
    ((skipNone "accounts" accountSummary.struct.list).and
    ((defaulted "tool_matrix" accountToolMatrix.struct.list []).and
    ((required "config_path" path).and
    ((required "config_hash_sha256" string).and
    ((optional "previous_last_seq" seq).and
    ((optional "previous_process_id" (processId fmt)).and
    ((required "previous_file_inode" u64).and
    (required "audit_file_inode_changed" bool))))))))))).iso
    (fun (version, gitCommit, posture, accounts, toolMatrix, configPath, configHashSha256,
        previousLastSeq, previousProcessId, previousFileInode, auditFileInodeChanged) =>
      ⟨version, gitCommit, posture, accounts, toolMatrix, configPath, configHashSha256,
        previousLastSeq, previousProcessId, previousFileInode, auditFileInodeChanged⟩)
    fun s => (s.version, s.gitCommit, s.posture, s.accounts, s.toolMatrix, s.configPath,
      s.configHashSha256, s.previousLastSeq, s.previousProcessId, s.previousFileInode,
      s.auditFileInodeChanged)

def processEnd : Fields ProcessEnd :=
  ((required "reason" processEndReason).and
    ((required "total_tool_calls" u64).and
    ((defaulted "records_lost" u64 0).and
    ((defaulted "undrained_dispatches" u64 0).and
    (defaulted "drainer_aborted_records" u64 0))))).iso
    (fun (reason, totalToolCalls, recordsLost, undrainedDispatches, drainerAbortedRecords) =>
      ⟨reason, totalToolCalls, recordsLost, undrainedDispatches, drainerAbortedRecords⟩)
    fun e => (e.reason, e.totalToolCalls, e.recordsLost, e.undrainedDispatches,
      e.drainerAbortedRecords)

def authEvent : Fields AuthEvent :=
  ((skipNone "account" string).and
    ((required "result" authResult).and
    ((required "host" string).and
    ((required "port" u16).and
    ((required "username" string).and
    ((optional "tls_fingerprint_sha256" string).and
    ((optional "fingerprint_match" bool).and
    ((optional "error_code" errorCode).and
    (skipNone "credential_source" credentialSource))))))))).iso
    (fun (account, result, host, port, username, tlsFingerprintSha256, fingerprintMatch,
        errorCode, credentialSource) =>
      ⟨account, result, host, port, username, tlsFingerprintSha256, fingerprintMatch,
        errorCode, credentialSource⟩)
    fun a => (a.account, a.result, a.host, a.port, a.username, a.tlsFingerprintSha256,
      a.fingerprintMatch, a.errorCode, a.credentialSource)

def toolStart (fmt : Formats) : Fields ToolStart :=
  ((skipNone "account" string).and
    ((required "tool" toolName).and
    ((required "posture_effective" postureEffective).and
    ((required "arguments_redacted" (valueCodec fmt.readFloat)).and
    (required "arguments_hash_sha256" string))))).iso
    (fun (account, tool, postureEffective, argumentsRedacted, argumentsHashSha256) =>
      ⟨account, tool, postureEffective, argumentsRedacted, argumentsHashSha256⟩)
    fun t => (t.account, t.tool, t.postureEffective, t.argumentsRedacted, t.argumentsHashSha256)

def toolEnd : Fields ToolEnd :=
  ((skipNone "account" string).and
    ((required "start_seq" seq).and
    ((required "tool" toolName).and
    ((required "status" toolStatus).and
    ((optional "error_code" errorCode).and
    ((required "duration_ms" u64).and
    ((required "result_summary" resultSummary.struct).and
    (required "provenance" provenance.struct)))))))).iso
    (fun (account, startSeq, tool, status, errorCode, durationMs, resultSummary, provenance) =>
      ⟨account, startSeq, tool, status, errorCode, durationMs, resultSummary, provenance⟩)
    fun t => (t.account, t.startSeq, t.tool, t.status, t.errorCode, t.durationMs,
      t.resultSummary, t.provenance)

def configEvent : Fields ConfigEvent :=
  ((required "path" path).and
    (required "hash_sha256" string)).iso
    (fun (path, hashSha256) => ⟨path, hashSha256⟩)
    fun c => (c.path, c.hashSha256)

def folderPolicy : Fields FolderPolicy :=
  ((required "account" string).and
    ((required "protected_folders" folderEntry.struct.list).and
    ((required "special_use_discovery" specialUseDiscovery).and
    (required "expunge_folders" folderEntry.struct.list)))).iso
    (fun (account, protectedFolders, specialUseDiscovery, expungeFolders) =>
      ⟨account, protectedFolders, specialUseDiscovery, expungeFolders⟩)
    fun p => (p.account, p.protectedFolders, p.specialUseDiscovery, p.expungeFolders)

/-! ## Nothing is written as `null` but `None` -/

theorem text_ne_null {α : Type} {asStr : α → String} {fromStr : String → Option α} (x : α) :
    (text asStr fromStr).encode x ≠ .null := nofun

theorem unitEnum_ne_null {α : Type} {all : List α} {name : α → String} (x : α) :
    (unitEnum all name).encode x ≠ .null := nofun

theorem uint_ne_null {α : Type} {bound : Nat} {build : Nat → α} {value : α → Nat} (x : α) :
    (uint bound build value).encode x ≠ .null := nofun

theorem string_ne_null (x : String) : string.encode x ≠ .null := nofun

theorem bool_ne_null (x : Bool) : bool.encode x ≠ .null := nofun

theorem list_ne_null {α : Type} {c : Codec α} (x : List α) : c.list.encode x ≠ .null := nofun

/-! ## The schema is lawful -/

theorem disjoint_of_all {α β : Type} {f : Fields α} {g : Fields β}
    (h : (f.keys.all fun key => !g.keys.contains key) = true) :
    ∀ key ∈ f.keys, key ∉ g.keys := by
  intro key hkey hin
  have hout := List.all_eq_true.mp h key hkey
  rw [List.contains_iff_mem.mpr hin] at hout
  cases hout

theorem lawful_accountSummary : accountSummary.Lawful := by
  refine lawful_iso ?_ (fun _ => rfl) fun _ => rfl
  refine lawful_and (lawful_required lawful_string) ?_ (disjoint_of_all rfl)
  refine lawful_and (lawful_required lawful_posture) ?_ (disjoint_of_all rfl)
  exact lawful_required lawful_string

theorem lawful_toolVerdict : toolVerdict.Lawful := by
  refine lawful_iso ?_ (fun _ => rfl) fun _ => rfl
  refine lawful_and (lawful_required lawful_toolName) ?_ (disjoint_of_all rfl)
  refine lawful_and (lawful_required lawful_bool) ?_ (disjoint_of_all rfl)
  exact lawful_required lawful_verdictSource

theorem lawful_folderEntry : folderEntry.Lawful := by
  refine lawful_iso ?_ (fun _ => rfl) fun _ => rfl
  refine lawful_and (lawful_required lawful_string) ?_ (disjoint_of_all rfl)
  exact lawful_required lawful_folderSource

theorem lawful_folderList : folderEntry.struct.list.Lawful :=
  lawful_list (lawful_struct lawful_folderEntry)

theorem lawful_accountToolMatrix : accountToolMatrix.Lawful := by
  refine lawful_iso ?_ (fun _ => rfl) fun _ => rfl
  refine lawful_and (lawful_required lawful_string) ?_ (disjoint_of_all rfl)
  refine lawful_and (lawful_required lawful_posture) ?_ (disjoint_of_all rfl)
  refine lawful_and (lawful_defaulted (lawful_list (lawful_struct lawful_toolVerdict))) ?_
    (disjoint_of_all rfl)
  refine lawful_and (lawful_defaulted lawful_folderList) ?_ (disjoint_of_all rfl)
  refine lawful_and (lawful_defaulted lawful_specialUseDiscovery) ?_ (disjoint_of_all rfl)
  exact lawful_defaulted lawful_folderList

theorem lawful_attachmentProvenance : attachmentProvenance.Lawful := by
  refine lawful_iso ?_ (fun _ => rfl) fun _ => rfl
  refine lawful_and (lawful_required lawful_string) ?_ (disjoint_of_all rfl)
  exact lawful_required lawful_u64

theorem lawful_resultSummary : resultSummary.Lawful := by
  refine lawful_iso ?_ (fun _ => rfl) fun _ => rfl
  refine lawful_and (lawful_defaulted (lawful_list lawful_string)) ?_ (disjoint_of_all rfl)
  refine lawful_and (lawful_defaulted lawful_u64) ?_ (disjoint_of_all rfl)
  refine lawful_and (lawful_defaulted lawful_bool) ?_ (disjoint_of_all rfl)
  refine lawful_and (lawful_defaulted (lawful_list lawful_warningCode)) ?_ (disjoint_of_all rfl)
  refine lawful_and (lawful_skipNone lawful_string string_ne_null) ?_ (disjoint_of_all rfl)
  refine lawful_and (lawful_skipNone lawful_string string_ne_null) ?_ (disjoint_of_all rfl)
  refine lawful_and (lawful_skipNone lawful_u64 uint_ne_null) ?_ (disjoint_of_all rfl)
  refine lawful_and (lawful_skipEmpty lawful_u32) ?_ (disjoint_of_all rfl)
  refine lawful_and (lawful_skipEmpty lawful_u32) ?_ (disjoint_of_all rfl)
  exact lawful_skipEmpty (lawful_struct lawful_attachmentProvenance)

theorem lawful_provenance : provenance.Lawful := by
  refine lawful_iso ?_ (fun _ => rfl) fun _ => rfl
  refine lawful_and (lawful_required lawful_u32) ?_ (disjoint_of_all rfl)
  exact lawful_required (lawful_list lawful_string)

theorem lawful_processStart {fmt : Formats} (h : fmt.Documented) :
    (processStart fmt).Lawful := by
  refine lawful_iso ?_ (fun _ => rfl) fun _ => rfl
  refine lawful_and (lawful_required lawful_string) ?_ (disjoint_of_all rfl)
  refine lawful_and (lawful_required lawful_string) ?_ (disjoint_of_all rfl)
  refine lawful_and (lawful_skipNone lawful_posture unitEnum_ne_null) ?_ (disjoint_of_all rfl)
  refine lawful_and (lawful_skipNone (lawful_list (lawful_struct lawful_accountSummary))
    list_ne_null) ?_ (disjoint_of_all rfl)
  refine lawful_and (lawful_defaulted (lawful_list (lawful_struct lawful_accountToolMatrix))) ?_
    (disjoint_of_all rfl)
  refine lawful_and (lawful_required lawful_path) ?_ (disjoint_of_all rfl)
  refine lawful_and (lawful_required lawful_string) ?_ (disjoint_of_all rfl)
  refine lawful_and (lawful_optional lawful_u64 uint_ne_null) ?_ (disjoint_of_all rfl)
  refine lawful_and (lawful_optional (lawful_processId h) text_ne_null) ?_ (disjoint_of_all rfl)
  refine lawful_and (lawful_required lawful_u64) ?_ (disjoint_of_all rfl)
  exact lawful_required lawful_bool

theorem lawful_processEnd : processEnd.Lawful := by
  refine lawful_iso ?_ (fun _ => rfl) fun _ => rfl
  refine lawful_and (lawful_required lawful_processEndReason) ?_ (disjoint_of_all rfl)
  refine lawful_and (lawful_required lawful_u64) ?_ (disjoint_of_all rfl)
  refine lawful_and (lawful_defaulted lawful_u64) ?_ (disjoint_of_all rfl)
  refine lawful_and (lawful_defaulted lawful_u64) ?_ (disjoint_of_all rfl)
  exact lawful_defaulted lawful_u64

theorem lawful_authEvent : authEvent.Lawful := by
  refine lawful_iso ?_ (fun _ => rfl) fun _ => rfl
  refine lawful_and (lawful_skipNone lawful_string string_ne_null) ?_ (disjoint_of_all rfl)
  refine lawful_and (lawful_required lawful_authResult) ?_ (disjoint_of_all rfl)
  refine lawful_and (lawful_required lawful_string) ?_ (disjoint_of_all rfl)
  refine lawful_and (lawful_required lawful_u16) ?_ (disjoint_of_all rfl)
  refine lawful_and (lawful_required lawful_string) ?_ (disjoint_of_all rfl)
  refine lawful_and (lawful_optional lawful_string string_ne_null) ?_ (disjoint_of_all rfl)
  refine lawful_and (lawful_optional lawful_bool bool_ne_null) ?_ (disjoint_of_all rfl)
  refine lawful_and (lawful_optional lawful_errorCode text_ne_null) ?_ (disjoint_of_all rfl)
  exact lawful_skipNone lawful_credentialSource unitEnum_ne_null

theorem lawful_toolStart {fmt : Formats} : (toolStart fmt).Lawful := by
  refine lawful_iso ?_ (fun _ => rfl) fun _ => rfl
  refine lawful_and (lawful_skipNone lawful_string string_ne_null) ?_ (disjoint_of_all rfl)
  refine lawful_and (lawful_required lawful_toolName) ?_ (disjoint_of_all rfl)
  refine lawful_and (lawful_required lawful_postureEffective) ?_ (disjoint_of_all rfl)
  refine lawful_and (lawful_required (lawful_valueCodec fmt.readFloat)) ?_ (disjoint_of_all rfl)
  exact lawful_required lawful_string

theorem lawful_toolEnd : toolEnd.Lawful := by
  refine lawful_iso ?_ (fun _ => rfl) fun _ => rfl
  refine lawful_and (lawful_skipNone lawful_string string_ne_null) ?_ (disjoint_of_all rfl)
  refine lawful_and (lawful_required lawful_u64) ?_ (disjoint_of_all rfl)
  refine lawful_and (lawful_required lawful_toolName) ?_ (disjoint_of_all rfl)
  refine lawful_and (lawful_required lawful_toolStatus) ?_ (disjoint_of_all rfl)
  refine lawful_and (lawful_optional lawful_errorCode text_ne_null) ?_ (disjoint_of_all rfl)
  refine lawful_and (lawful_required lawful_u64) ?_ (disjoint_of_all rfl)
  refine lawful_and (lawful_required (lawful_struct lawful_resultSummary)) ?_ (disjoint_of_all rfl)
  exact lawful_required (lawful_struct lawful_provenance)

theorem lawful_configEvent : configEvent.Lawful := by
  refine lawful_iso ?_ (fun _ => rfl) fun _ => rfl
  refine lawful_and (lawful_required lawful_path) ?_ (disjoint_of_all rfl)
  exact lawful_required lawful_string

theorem lawful_folderPolicy : folderPolicy.Lawful := by
  refine lawful_iso ?_ (fun _ => rfl) fun _ => rfl
  refine lawful_and (lawful_required lawful_string) ?_ (disjoint_of_all rfl)
  refine lawful_and (lawful_required lawful_folderList) ?_ (disjoint_of_all rfl)
  refine lawful_and (lawful_required lawful_specialUseDiscovery) ?_ (disjoint_of_all rfl)
  exact lawful_required lawful_folderList

end RustyImap.Record
