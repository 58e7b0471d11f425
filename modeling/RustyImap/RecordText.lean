import RustyImap.RecordCodec

/-!
# The texts of times and identifiers

A reader of RFC 3339 times and of ULIDs, and of the decimals that an `f64`
holds as they stand, which does what `Formats.Documented` asks for.  A leap
second and the other spellings that the `time` crate takes are left out.
-/

namespace RustyImap.Record

open AuditWorker (padded)

/-! ## Padded numbers -/

theorem toList_pushn (s : String) (c : Char) (n : Nat) :
    (s.pushn c n).toList = s.toList ++ List.replicate n c := by
  rw [String.pushn_eq_repeat_push]
  induction n with
  | zero => simp [Nat.repeat]
  | succ n ih => rw [Nat.repeat, String.toList_push, ih, List.append_assoc, List.replicate_succ']

theorem toList_padded (width n : Nat) :
    (padded width n).toList =
      List.replicate (width - (Nat.toDigits 10 n).length) '0' ++ Nat.toDigits 10 n := by
  have hdigits : (toString n).toList = Nat.toDigits 10 n := Nat.toList_repr
  have hlength : (toString n).length = (Nat.toDigits 10 n).length := by
    rw [← String.length_toList, hdigits]
  unfold padded
  rw [String.toList_append, toList_pushn, hdigits, hlength]
  rfl

theorem length_padded {width n : Nat} (hwidth : 0 < width) (hn : n < 10 ^ width) :
    (padded width n).toList.length = width := by
  have hle : (Nat.toDigits 10 n).length ≤ width :=
    (Nat.length_toDigits_le_iff (by decide) hwidth).mpr hn
  rw [toList_padded, List.length_append, List.length_replicate]
  omega

theorem isDigit_of_mem_padded {width n : Nat} {c : Char} (h : c ∈ (padded width n).toList) :
    c.isDigit = true := by
  rw [toList_padded] at h
  rcases List.mem_append.mp h with h | h
  · rw [List.eq_of_mem_replicate h]
    rfl
  · exact Nat.isDigit_of_mem_toDigits (by decide) (by decide) h

theorem digitsToNat_padded (width n : Nat) : digitsToNat (padded width n).toList = some n := by
  rw [toList_padded]
  exact digitsToNat_zeros _ n

/-! ## RFC 3339 -/

/-- A number of exactly `width` digits, and what comes after it. -/
def number (width : Nat) (text : List Char) : Option (Nat × List Char) :=
  if (text.take width).length = width then
    (digitsToNat (text.take width)).map fun n => (n, text.drop width)
  else none

def skip (c : Char) : List Char → Option (List Char)
  | [] => none
  | d :: text => if d = c then some text else none

/-- Nanoseconds; digits beyond the ninth are ignored. -/
def secfrac : List Char → Option (Nat × List Char)
  | '.' :: text =>
      let digits := text.takeWhile Char.isDigit
      let kept := digits.take 9
      (digitsToNat kept).map fun n => (n * 10 ^ (9 - kept.length), text.drop digits.length)
  | text => some (0, text)

def numOffset (text : List Char) : Option Int := do
  let (hour, text) ← number 2 text
  let text ← skip ':' text
  let (minute, text) ← number 2 text
  if text = [] ∧ hour < 24 ∧ minute < 60 then some (hour * 3600 + minute * 60) else none

/-- The offset in seconds, at the end of the text. -/
def timeOffset : List Char → Option Int
  | ['Z'] => some 0
  | '+' :: text => numOffset text
  | '-' :: text => (numOffset text).map fun seconds => -seconds
  | _ => none

def OffsetDateTime.new (year month day hour minute second nanosecond : Nat) (offset : Int) :
    Option OffsetDateTime :=
  if h : (-9999 ≤ (year : Int) ∧ (year : Int) ≤ 9999) ∧ (1 ≤ month ∧ month ≤ 12) ∧
      (1 ≤ day ∧ day ≤ daysInMonth year month) ∧
      (hour < 24 ∧ minute < 60 ∧ second < 60 ∧ nanosecond < 1000000000) then
    some ⟨year, month, day, hour, minute, second, nanosecond, offset, h.1, h.2.1, h.2.2.1,
      h.2.2.2⟩
  else none

def readTime (text : List Char) : Option OffsetDateTime := do
  let (year, text) ← number 4 text
  let text ← skip '-' text
  let (month, text) ← number 2 text
  let text ← skip '-' text
  let (day, text) ← number 2 text
  let text ← skip 'T' text
  let (hour, text) ← number 2 text
  let text ← skip ':' text
  let (minute, text) ← number 2 text
  let text ← skip ':' text
  let (second, text) ← number 2 text
  let (nanosecond, text) ← secfrac text
  let offset ← timeOffset text
  OffsetDateTime.new year month day hour minute second nanosecond offset

/-- A padded number is read as itself, whatever stands after it. -/
theorem number_padded {width n : Nat} (hwidth : 0 < width) (hn : n < 10 ^ width)
    (text : List Char) : number width ((padded width n).toList ++ text) = some (n, text) := by
  have hlength := length_padded hwidth hn
  have htake : ((padded width n).toList ++ text).take width = (padded width n).toList := by
    rw [List.take_append_of_le_length (Nat.le_of_eq hlength.symm)]
    exact List.take_of_length_le (Nat.le_of_eq hlength)
  have hdrop : ((padded width n).toList ++ text).drop width = text := by
    rw [List.drop_append_of_le_length (Nat.le_of_eq hlength.symm)]
    rw [List.drop_eq_nil_of_le (Nat.le_of_eq hlength), List.nil_append]
  unfold number
  rw [htake, hdrop, if_pos hlength, digitsToNat_padded]
  rfl

theorem skip_cons (c : Char) (text : List Char) : skip c (c :: text) = some text := if_pos rfl

/-- Milliseconds are read as the nanoseconds that they are. -/
theorem secfrac_padded {ms : Nat} (hms : ms < 1000) :
    secfrac ('.' :: ((padded 3 ms).toList ++ ['Z'])) = some (ms * 1000000, ['Z']) := by
  have hlength : (padded 3 ms).toList.length = 3 := length_padded (by decide) hms
  have hdigits : ((padded 3 ms).toList ++ ['Z']).takeWhile Char.isDigit =
      (padded 3 ms).toList := by
    have hall : ∀ c ∈ (padded 3 ms).toList, c.isDigit = true := fun _ => isDigit_of_mem_padded
    rw [List.takeWhile_append_of_pos hall]
    simp
  have hkept : (padded 3 ms).toList.take 9 = (padded 3 ms).toList :=
    List.take_of_length_le (by omega)
  have hrest : ((padded 3 ms).toList ++ ['Z']).drop 3 = ['Z'] := by
    rw [List.drop_append_of_le_length (Nat.le_of_eq hlength.symm),
      List.drop_eq_nil_of_le (Nat.le_of_eq hlength), List.nil_append]
  unfold secfrac
  simp only [hdigits, hkept, hlength, hrest, digitsToNat_padded, Option.map_some]
  rfl

/-- A date and time with its parts. -/
theorem OffsetDateTime.new_self (dt : OffsetDateTime) (h : 0 ≤ dt.year) :
    OffsetDateTime.new dt.year.toNat dt.month dt.day dt.hour dt.minute dt.second dt.nanosecond 0 =
      some (dt.withOffset 0) := by
  have hyear : (dt.year.toNat : Int) = dt.year := Int.toNat_of_nonneg h
  unfold OffsetDateTime.new
  simp only [hyear]
  rw [dif_pos ⟨dt.hyear, dt.hmonth, dt.hday, dt.htime⟩]
  rfl

theorem daysInMonth_le (year : Int) (month : Nat) : daysInMonth year month ≤ 31 := by
  unfold daysInMonth
  split <;> split <;> omega

/-- What is printed, read part by part. -/
theorem readTime_toText (ts : Timestamp) (h : 0 ≤ ts.dateTime.year) :
    readTime ts.toText.toList = some (ts.dateTime.withOffset 0) := by
  obtain ⟨dt, hmillis⟩ := ts
  have hyear : dt.year.toNat < 10 ^ 4 := by
    have := dt.hyear
    omega
  have hmonth : dt.month < 10 ^ 2 := by
    have := dt.hmonth
    omega
  have hday : dt.day < 10 ^ 2 := by
    have := dt.hday
    have := daysInMonth_le dt.year dt.month
    omega
  obtain ⟨hhour, hminute, hsecond, hnano⟩ := dt.htime
  have hms : dt.nanosecond / 1000000 < 1000 := by omega
  have hnanos : dt.nanosecond / 1000000 * 1000000 = dt.nanosecond := by omega
  have htext : (Timestamp.toText ⟨dt, hmillis⟩).toList =
      (padded 4 dt.year.toNat).toList ++ '-' :: ((padded 2 dt.month).toList ++ '-' ::
      ((padded 2 dt.day).toList ++ 'T' :: ((padded 2 dt.hour).toList ++ ':' ::
      ((padded 2 dt.minute).toList ++ ':' :: ((padded 2 dt.second).toList ++ '.' ::
      ((padded 3 (dt.nanosecond / 1000000)).toList ++ ['Z'])))))) := by
    have hpositive : ¬dt.year < 0 := Int.not_lt.mpr h
    have hdash : "-".toList = ['-'] := rfl
    have hcolon : ":".toList = [':'] := rfl
    have htime : "T".toList = ['T'] := rfl
    have hpoint : ".".toList = ['.'] := rfl
    have hzulu : "Z".toList = ['Z'] := rfl
    simp only [Timestamp.toText, paddedYear, if_neg hpositive, String.toList_append, hdash,
      hcolon, htime, hpoint, hzulu, List.append_assoc, List.cons_append, List.nil_append]
  have htwo : ∀ n text, n < 10 ^ 2 → number 2 ((padded 2 n).toList ++ text) = some (n, text) :=
    fun n text hn => number_padded (by decide) hn text
  rw [htext, readTime]
  simp only [bind, Option.bind_some, skip_cons, number_padded (by decide : 0 < 4) hyear,
    htwo _ _ hmonth, htwo _ _ hday, htwo _ _ (Nat.lt_trans hhour (by decide)),
    htwo _ _ (Nat.lt_trans hminute (by decide)), htwo _ _ (Nat.lt_trans hsecond (by decide)),
    secfrac_padded hms, hnanos]
  exact dt.new_self h

theorem OffsetDateTime.year_of_new {year month day hour minute second nanosecond : Nat}
    {offset : Int} {dt : OffsetDateTime}
    (h : OffsetDateTime.new year month day hour minute second nanosecond offset = some dt) :
    dt.year = year := by
  unfold OffsetDateTime.new at h
  split at h
  · rw [← Option.some.inj h]
  · cases h

theorem year_of_readTime {text : List Char} {dt : OffsetDateTime} (h : readTime text = some dt) :
    0 ≤ dt.year := by
  simp only [readTime, bind, Option.bind_eq_some_iff] at h
  obtain ⟨⟨year, _⟩, -, _, -, _, -, _, -, _, -, _, -, _, -, _, -, _, -, _, -, _, -, _, -, _, -,
    hnew⟩ := h
  rw [OffsetDateTime.year_of_new hnew]
  exact Int.natCast_nonneg year

theorem readTime_of_sign {text : List Char} (h : text.head? = some '-') :
    readTime text = none := by
  obtain ⟨rest, rfl⟩ : ∃ rest, text = '-' :: rest := by
    cases text with
    | nil => cases h
    | cons c rest => exact ⟨rest, by rw [Option.some.inj h]⟩
  have hnumber : number 4 ('-' :: rest) = none := by
    unfold number
    split
    · simp [digitsToNat]
    · rfl
  rw [readTime, hnumber]
  rfl

/-! ## ULID -/

def ulidAlphabet : List Char :=
  ['0', '1', '2', '3', '4', '5', '6', '7', '8', '9', 'A', 'B', 'C', 'D', 'E', 'F', 'G', 'H', 'J',
   'K', 'M', 'N', 'P', 'Q', 'R', 'S', 'T', 'V', 'W', 'X', 'Y', 'Z']

def ulidDigits : Nat → Nat → List Char
  | 0, _ => []
  | width + 1, n => ulidDigits width (n / 32) ++ [ulidAlphabet.getD (n % 32) '0']

def readUlidDigits (text : List Char) : Option Nat :=
  text.foldl (fun n c => do return 32 * (← n) + (← ulidAlphabet.idxOf? c)) (some 0)

def ulidToString (id : ProcessId) : String := String.ofList (ulidDigits 26 id.val)

def ulidFromString (s : String) : Option ProcessId :=
  if s.toList.length = 26 then
    (readUlidDigits s.toList).bind fun n => if h : n < 2 ^ 128 then some ⟨n, h⟩ else none
  else none

theorem idxOf_ulidAlphabet : ∀ d : Fin 32,
    ulidAlphabet.idxOf? (ulidAlphabet.getD d.val '0') = some d.val := by
  decide

theorem length_ulidDigits (width n : Nat) : (ulidDigits width n).length = width := by
  induction width generalizing n with
  | zero => rfl
  | succ width ih => rw [ulidDigits, List.length_append, ih, List.length_singleton]

theorem readUlidDigits_ulidDigits {width n : Nat} (h : n < 32 ^ width) :
    readUlidDigits (ulidDigits width n) = some n := by
  induction width generalizing n with
  | zero =>
      obtain rfl : n = 0 := by omega
      rfl
  | succ width ih =>
      have hquotient : n / 32 < 32 ^ width := by
        rw [Nat.pow_succ] at h
        omega
      have hlast := idxOf_ulidAlphabet ⟨n % 32, Nat.mod_lt n (by decide)⟩
      have hfirst := ih hquotient
      unfold readUlidDigits at hfirst ⊢
      rw [ulidDigits, List.foldl_append, hfirst, List.foldl_cons, List.foldl_nil, hlast]
      exact congrArg some (Nat.div_add_mod n 32)

theorem ulidFromString_ulidToString (id : ProcessId) :
    ulidFromString (ulidToString id) = some id := by
  have hread : readUlidDigits (ulidDigits 26 id.val) = some id.val :=
    readUlidDigits_ulidDigits (Nat.lt_trans id.isLt (by decide))
  unfold ulidFromString ulidToString
  rw [String.toList_ofList, if_pos (length_ulidDigits 26 id.val), hread, Option.bind_some,
    dif_pos id.isLt]

/-! ## All of them -/

/-- A decimal that is printed as it stands: at most fifteen digits, none of them
    idle. -/
def shortDecimal (literal : String) : Option String :=
  let whole := literal.toList.takeWhile Char.isDigit
  match literal.toList.drop whole.length with
  | '.' :: fraction =>
      if whole ≠ [] ∧ fraction ≠ [] ∧ fraction.all Char.isDigit ∧
          (whole.head? ≠ some '0' ∨ whole = ['0'] ∧ fraction.head? ≠ some '0') ∧
          (fraction = ['0'] ∨ fraction.getLast? ≠ some '0') ∧
          whole.length + fraction.length ≤ 15 then
        some literal
      else none
  | _ => none

def Formats.standard : Formats where
  rfc3339 s := readTime s.toList
  ulidToString := Record.ulidToString
  ulidFromString := Record.ulidFromString
  readFloat := shortDecimal

theorem documented_standard : Formats.standard.Documented where
  rfc3339_utc ts h := readTime_toText ts h
  rfc3339_year _ _ h := year_of_readTime h
  rfc3339_sign _ h := readTime_of_sign h
  ulid id := by
    have hulid := ulidFromString_ulidToString id
    simpa only [Formats.standard] using hulid

end RustyImap.Record
