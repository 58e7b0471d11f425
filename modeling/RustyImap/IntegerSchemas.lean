import RustyImap.ReadLists
import RustyImap.ToolArguments
import RustyImap.ValueCodec

/-!
# Integer schemas (`rimap-core/src/lenient_int.rs`, `rimap-core/src/uid_selector.rs`)

An integer argument has a published JSON Schema, which a host checks before it calls, and
a deserializer.  Both take the number and its digits as a string; both are written by
hand.

They part at the edges: a pattern has no upper bound and no leading zeros, a number can
be written with a fraction or an exponent, and of the two shapes of a `UidSelector` the
schema wants at least one, the deserializer exactly one.
-/

namespace RustyImap.LenientInt

open Record (numberValue)
open ReadLists (mapM_eq_some_iff mapM_isSome)

/-! ## JSON Schema -/

/-- A schema is what it accepts. -/
abbrev Schema := Json → Bool

/-- A pattern `^FR*$`: one code point, then any number of others. -/
structure Pattern where
  text : String
  first : Char → Bool
  rest : Char → Bool

def Pattern.matches (pattern : Pattern) (s : String) : Bool :=
  match s.toList with
  | [] => false
  | c :: others => pattern.first c && others.all pattern.rest

/-- The integer that a literal denotes: `1.0` and `1e0` are `1`. -/
def integerValue (literal : String) : Option Int :=
  (numberValue literal).bind fun q => if q.den = 1 then some q.num else none

namespace Schema

/-- `type: integer` with `minimum` and `maximum`. -/
def integer (minimum maximum : Nat) : Schema
  | .number literal =>
      (integerValue literal).any fun n => decide ((minimum : Int) ≤ n ∧ n ≤ (maximum : Int))
  | _ => false

/-- `type: string` with `pattern`. -/
def string (pattern : Pattern) : Schema
  | .string s => pattern.matches s
  | _ => false

def null : Schema
  | .null => true
  | _ => false

def oneOf (branches : List Schema) : Schema := fun v => (branches.filter (· v)).length == 1

def anyOf (branches : List Schema) : Schema := fun v => branches.any (· v)

/-- `type: object`; a property that is not required may be missing. -/
def object (properties : List (String × Schema)) (required : List String) : Schema
  | .object fields =>
      required.all (fun key => (fields.lookup key).isSome) &&
        properties.all fun p => (fields.lookup p.1).all p.2
  | _ => false

def array (items : Schema) (minItems maxItems : Nat) : Schema
  | .array values =>
      decide (minItems ≤ values.length ∧ values.length ≤ maxItems) && values.all items
  | _ => false

end Schema

/-! ## `lenient_int` -/

def I64_MAX_AS_U64 : Nat := 2 ^ 63 - 1

def U32_MAX_AS_U64 : Nat := 2 ^ 32 - 1

def isDigit (c : Char) : Bool := '0' ≤ c && c ≤ '9'

def DIGITS : Pattern := ⟨"^[0-9]+$", isDigit, isDigit⟩

def POSITIVE_DIGITS : Pattern := ⟨"^[1-9][0-9]*$", fun c => '1' ≤ c && c ≤ '9', isDigit⟩

def lenientSchema (minimum maximum : Nat) (pattern : Pattern) (nullable : Bool) : Schema :=
  .oneOf ([.integer minimum maximum, .string pattern] ++ if nullable then [.null] else [])

def schemaOptUsize : Schema := lenientSchema 0 I64_MAX_AS_U64 DIGITS true

def schemaOptU32 : Schema := lenientSchema 0 U32_MAX_AS_U64 DIGITS true

def schemaOptU64 : Schema := lenientSchema 0 I64_MAX_AS_U64 DIGITS true

def schemaNonzeroU32 : Schema := lenientSchema 1 U32_MAX_AS_U64 POSITIVE_DIGITS false

def schemaOptNonzeroU32 : Schema := lenientSchema 1 U32_MAX_AS_U64 POSITIVE_DIGITS true

def optU32 : Option Json → Option (Option Nat) := Json.optional (lenientInt (2 ^ 32))

/-- The five pairs. -/
inductive Pair where
  | optUsize
  | optU32
  | optU64
  | nonzeroU32
  | optNonzeroU32
deriving DecidableEq, Repr

def Pair.schema : Pair → Schema
  | .optUsize => schemaOptUsize
  | .optU32 => schemaOptU32
  | .optU64 => schemaOptU64
  | .nonzeroU32 => schemaNonzeroU32
  | .optNonzeroU32 => schemaOptNonzeroU32

def Pair.deserialize (pair : Pair) (v : Json) : Option (Option Nat) :=
  match pair with
  | .optUsize => RustyImap.optUsize (some v)
  | .optU32 => LenientInt.optU32 (some v)
  | .optU64 => RustyImap.optU64 (some v)
  | .nonzeroU32 => (RustyImap.nonzeroU32 v).map fun n => some n.val
  | .optNonzeroU32 => (RustyImap.optNonzeroU32 (some v)).map fun n => n.map (·.val)

/-! ## `UidSelector` -/

def MAX_BATCH_UIDS : Nat := 100

abbrev BoundedUids := { uids : List NonZeroU32 // uids ≠ [] ∧ uids.length ≤ MAX_BATCH_UIDS }

inductive UidSelector where
  | single (uid : NonZeroU32)
  | batch (uids : BoundedUids)

def schemaBoundedUids : Schema := .array schemaNonzeroU32 1 MAX_BATCH_UIDS

def schemaUidSelector : Schema :=
  .anyOf [.object [("uid", schemaNonzeroU32)] ["uid"],
    .object [("uids", schemaBoundedUids)] ["uids"]]

def boundedUids (v : Json) : Option BoundedUids :=
  (Json.asVec nonzeroU32 v).bind fun uids =>
    if h : uids ≠ [] ∧ uids.length ≤ MAX_BATCH_UIDS then some ⟨uids, h⟩ else none

/-- The two values that `UidSelectorWire` is read from: a structure may also be an array
    of its fields, and a missing one is the default. -/
def wireFields : Json → Option (Option Json × Option Json)
  | .object fields => some (fields.lookup "uid", fields.lookup "uids")
  | .array [] => some (none, none)
  | .array [uid] => some (some uid, none)
  | .array [uid, uids] => some (some uid, some uids)
  | _ => none

def UidSelector.deserialize (v : Json) : Option UidSelector := do
  let (uidValue, uidsValue) ← wireFields v
  let uid ← optNonzeroU32 uidValue
  let uids ← Json.optional boundedUids uidsValue
  match uid, uids with
  | some uid, none => some (.single uid)
  | none, some uids => some (.batch uids)
  | _, _ => none

/-! ## What each side takes -/

def Pair.minimum : Pair → Nat
  | .nonzeroU32 | .optNonzeroU32 => 1
  | _ => 0

def Pair.maximum : Pair → Nat
  | .optUsize | .optU64 => I64_MAX_AS_U64
  | _ => U32_MAX_AS_U64

/-- One more than the type holds. -/
def Pair.bound : Pair → Nat
  | .optUsize | .optU64 => 2 ^ 64
  | _ => 2 ^ 32

def Pair.pattern : Pair → Pattern
  | .nonzeroU32 | .optNonzeroU32 => POSITIVE_DIGITS
  | _ => DIGITS

def Pair.nullable : Pair → Bool
  | .nonzeroU32 => false
  | _ => true

/-- The number that a value denotes. -/
def denoted : Json → Option Nat
  | .number literal => (integerValue literal).map Int.toNat
  | .string s => digitsToNat s.toList
  | _ => none

/-- Null, digits in range, or a string that matches and is in range. -/
def Pair.both (pair : Pair) : Json → Bool
  | .null => pair.nullable
  | .number literal =>
      (digitsToNat literal.toList).any fun n => decide (pair.minimum ≤ n ∧ n ≤ pair.maximum)
  | .string s =>
      pair.pattern.matches s && (digitsToNat s.toList).any fun n => decide (n < pair.bound)
  | _ => false

/-- A number in range that is written with a sign, a fraction or an exponent, or a string
    that matches and is out of range. -/
def Pair.schemaOnly (pair : Pair) : Json → Bool
  | .number literal =>
      (digitsToNat literal.toList).isNone &&
        (integerValue literal).any fun n =>
          decide ((pair.minimum : Int) ≤ n ∧ n ≤ (pair.maximum : Int))
  | .string s =>
      pair.pattern.matches s && (digitsToNat s.toList).all fun n => decide (pair.bound ≤ n)
  | _ => false

/-- A string in range that does not match: it starts with a zero. -/
def Pair.decoderOnly (pair : Pair) : Json → Bool
  | .string s =>
      !pair.pattern.matches s &&
        (digitsToNat s.toList).any fun n => decide (pair.minimum ≤ n ∧ n < pair.bound)
  | _ => false

/-! ## Digits -/

theorem digitsToNat_eq_some {text : List Char} {n : Nat} (h : digitsToNat text = some n) :
    text ≠ [] ∧ ∀ c ∈ text, isDigit c = true := by
  unfold digitsToNat at h
  split at h
  · cases h
  · rename_i hdigits
    simp only [Bool.or_eq_true, List.isEmpty_iff, Bool.not_eq_true', not_or,
      Bool.not_eq_false] at hdigits
    exact ⟨hdigits.1, List.all_eq_true.mp hdigits.2⟩

theorem ne_of_isDigit {c d : Char} (hc : isDigit c = true) (hd : isDigit d = false) : c ≠ d := by
  rintro rfl
  rw [hc] at hd
  cases hd

theorem takeWhile_digits {text : List Char} (h : ∀ c ∈ text, isDigit c = true)
    {p : Char → Bool} (hp : ∀ c, isDigit c = true → p c = true) : text.takeWhile p = text :=
  List.takeWhile_eq_self_iff.mpr fun c hc => hp c (h c hc)

/-- Digits alone denote what they say. -/
theorem integerValue_of_digits {literal : String} {n : Nat}
    (h : digitsToNat literal.toList = some n) : integerValue literal = some n := by
  obtain ⟨-, hdigits⟩ := digitsToNat_eq_some h
  have hsign : (literal.toList.head? == some '-') = false := by
    rw [beq_eq_false_iff_ne]
    intro hhead
    exact absurd (hdigits '-' (List.mem_of_mem_head? hhead)) (by decide)
  have hmantissa : literal.toList.takeWhile (fun c => c != 'e' && c != 'E') = literal.toList := by
    refine takeWhile_digits hdigits ?_
    intro c hc
    have he := ne_of_isDigit hc (d := 'e') (by decide)
    have hE := ne_of_isDigit hc (d := 'E') (by decide)
    simp [he, hE]
  have hwhole : literal.toList.takeWhile (fun c => c != '.') = literal.toList := by
    refine takeWhile_digits hdigits ?_
    intro c hc
    have hdot := ne_of_isDigit hc (d := '.') (by decide)
    simp [hdot]
  have hvalue : numberValue literal = some (n : Rat) := by
    unfold numberValue
    simp only [hsign, hmantissa, hwhole, Bool.false_eq_true, if_false, List.drop_length,
      List.drop_nil, List.append_nil, h, Record.exponentValue]
    simp
  rw [integerValue, hvalue, Option.bind_some]
  simp

theorem le_foldl_digits (text : List Char) (n : Nat) :
    n ≤ text.foldl (fun n c => 10 * n + (c.toNat - '0'.toNat)) n := by
  induction text generalizing n with
  | nil => exact Nat.le_refl n
  | cons c rest ih =>
      have hrest := ih (10 * n + (c.toNat - '0'.toNat))
      rw [List.foldl_cons]
      omega

/-- The digits that a pattern allows make a number from the minimum on. -/
theorem minimum_le_of_matches {pair : Pair} {s : String} {n : Nat}
    (hmatches : pair.pattern.matches s = true) (hn : digitsToNat s.toList = some n) :
    pair.minimum ≤ n := by
  have hpositive (hpattern : POSITIVE_DIGITS.matches s = true) : 1 ≤ n := by
    unfold Pattern.matches at hpattern
    unfold digitsToNat at hn
    split at hpattern
    · cases hpattern
    · rename_i c rest hs
      rw [hs] at hn
      split at hn
      · cases hn
      · obtain rfl := Option.some.inj hn
        have hfirst : '1'.toNat ≤ c.toNat := by
          have hc := (Bool.and_eq_true _ _ ▸ hpattern).1
          simp only [POSITIVE_DIGITS, Bool.and_eq_true, decide_eq_true_eq] at hc
          exact hc.1
        have hone : '1'.toNat = '0'.toNat + 1 := rfl
        have hle := le_foldl_digits rest (10 * 0 + (c.toNat - '0'.toNat))
        rw [List.foldl_cons]
        omega
  cases pair with
  | nonzeroU32 => exact hpositive hmatches
  | optNonzeroU32 => exact hpositive hmatches
  | _ => exact Nat.zero_le n

/-! ## The pairs -/

theorem lenientSchema_eq (minimum maximum : Nat) (pattern : Pattern) (nullable : Bool)
    (v : Json) :
    lenientSchema minimum maximum pattern nullable v =
      match v with
      | .null => nullable
      | .number _ => Schema.integer minimum maximum v
      | .string s => pattern.matches s
      | _ => false := by
  unfold lenientSchema Schema.oneOf
  cases v with
  | null => cases nullable <;> rfl
  | number literal =>
      cases hnumber : Schema.integer minimum maximum (.number literal) <;> cases nullable <;>
        simp [hnumber, Schema.string, Schema.null]
  | string s =>
      cases hstring : pattern.matches s <;> cases nullable <;>
        simp [hstring, Schema.integer, Schema.string, Schema.null]
  | _ => cases nullable <;> rfl

theorem Pair.schema_eq (pair : Pair) :
    pair.schema = lenientSchema pair.minimum pair.maximum pair.pattern pair.nullable := by
  cases pair <;> rfl

/-- What the schema accepts. -/
theorem Pair.schema_accepts (pair : Pair) (v : Json) :
    pair.schema v = (pair.both v || pair.schemaOnly v) := by
  rw [pair.schema_eq, lenientSchema_eq]
  cases v with
  | number literal =>
      rcases hn : digitsToNat literal.toList with _ | n
      · simp [Pair.both, Pair.schemaOnly, Schema.integer, hn]
      · simp [Pair.both, Pair.schemaOnly, Schema.integer, hn, integerValue_of_digits hn]
  | string s =>
      rcases hn : digitsToNat s.toList with _ | n
      · simp [Pair.both, Pair.schemaOnly, hn]
      · by_cases hbound : n < pair.bound
        · simp [Pair.both, Pair.schemaOnly, hn, hbound]
        · simp [Pair.both, Pair.schemaOnly, hn, hbound, Nat.not_lt.mp hbound]
  | _ => simp [Pair.both, Pair.schemaOnly]

theorem lenientInt_lt {bound n : Nat} {v : Json} (h : lenientInt bound v = some n) :
    n < bound := by
  obtain ⟨value, -, hvalue⟩ := Option.bind_eq_some_iff.mp h
  cases value with
  | int i =>
      rw [intorstrToInt] at hvalue
      split at hvalue
      · rename_i hrange
        cases hvalue
        omega
      · cases hvalue
  | str s =>
      obtain ⟨m, -, hm⟩ := Option.bind_eq_some_iff.mp hvalue
      split at hm
      · cases hm
        assumption
      · cases hm

theorem nonzeroU32_map_val (v : Json) :
    (nonzeroU32 v).map (·.val) = (lenientInt (2 ^ 32) v).filter (1 ≤ ·) := by
  rw [nonzeroU32]
  rcases hn : lenientInt (2 ^ 32) v with _ | n
  · rfl
  · have hlt := lenientInt_lt hn
    rw [Option.bind_some, Option.filter_some]
    by_cases hpos : 1 ≤ n
    · rw [dif_pos ⟨hpos, hlt⟩, if_pos (decide_eq_true hpos)]
      rfl
    · rw [dif_neg fun h => hpos h.1, if_neg (by simpa using hpos)]
      rfl

theorem filter_zero_le (o : Option Nat) : o.filter (0 ≤ ·) = o := by
  cases o <;> simp

theorem Pair.deserialize_null (pair : Pair) :
    pair.deserialize .null = if pair.nullable then some none else none := by
  cases pair <;> rfl

theorem optional_of_ne_null {α : Type} (decode : Json → Option α) {v : Json}
    (hnull : v ≠ .null) : Json.optional decode (some v) = (decode v).map some := by
  cases v with
  | null => exact absurd rfl hnull
  | _ => rfl

/-- Every deserializer is the shared one, below the type's bound and from the minimum. -/
theorem Pair.deserialize_of_ne_null (pair : Pair) {v : Json} (hnull : v ≠ .null) :
    pair.deserialize v =
      ((lenientInt pair.bound v).filter (pair.minimum ≤ ·)).map some := by
  have hnonzero : (RustyImap.nonzeroU32 v).map (fun n => some n.val) =
      ((lenientInt (2 ^ 32) v).filter (1 ≤ ·)).map some := by
    rw [← nonzeroU32_map_val, Option.map_map]
    rfl
  cases pair with
  | optUsize =>
      exact (optional_of_ne_null _ hnull).trans (congrArg _ (filter_zero_le _).symm)
  | optU32 =>
      exact (optional_of_ne_null _ hnull).trans (congrArg _ (filter_zero_le _).symm)
  | optU64 =>
      exact (optional_of_ne_null _ hnull).trans (congrArg _ (filter_zero_le _).symm)
  | nonzeroU32 => exact hnonzero
  | optNonzeroU32 =>
      have hoptional : RustyImap.optNonzeroU32 (some v) = (RustyImap.nonzeroU32 v).map some :=
        optional_of_ne_null _ hnull
      refine Eq.trans ?_ hnonzero
      rw [deserialize, hoptional, Option.map_map]
      rfl

theorem lenientInt_string (bound : Nat) (s : String) :
    lenientInt bound (.string s) =
      (digitsToNat s.toList).bind fun n => if n < bound then some n else none :=
  rfl

theorem digitsToNat_minus (digits : List Char) : digitsToNat ('-' :: digits) = none := by
  rcases hn : digitsToNat ('-' :: digits) with _ | n
  · rfl
  · exact absurd ((digitsToNat_eq_some hn).2 '-' List.mem_cons_self) (by decide)

/-- Of numbers, the digits that fit `i64` are taken. -/
theorem lenientInt_number (bound : Nat) (literal : String) :
    lenientInt bound (.number literal) =
      (digitsToNat literal.toList).bind fun n =>
        if n < 2 ^ 63 ∧ n < bound then some n else none := by
  unfold lenientInt IntOrStr.decode
  dsimp only
  split
  · rename_i digits hliteral
    rw [hliteral, digitsToNat_minus]
    rcases digitsToNat digits with _ | n
    · rfl
    · rw [Option.bind_some]
      split
      · rename_i hrange
        rw [Option.bind_some, intorstrToInt, if_neg (by omega)]
        rfl
      · rfl
  · rcases digitsToNat literal.toList with _ | n
    · rfl
    · rw [Option.bind_some, Option.bind_some]
      by_cases hsmall : n < 2 ^ 63
      · rw [if_pos hsmall, Option.bind_some, intorstrToInt]
        by_cases hbound : n < bound
        · have hint : 0 ≤ (n : Int) ∧ (n : Int) < bound := by omega
          rw [if_pos hint, if_pos ⟨hsmall, hbound⟩, Int.toNat_natCast]
        · have hint : ¬(0 ≤ (n : Int) ∧ (n : Int) < bound) := by omega
          rw [if_neg hint, if_neg fun h => hbound h.2]
      · rw [if_neg hsmall, if_neg fun h => hsmall h.1]
        rfl

theorem Pair.le_maximum_iff (pair : Pair) {n : Nat} :
    n ≤ pair.maximum ↔ n < 2 ^ 63 ∧ n < pair.bound := by
  cases pair <;> simp only [maximum, bound, I64_MAX_AS_U64, U32_MAX_AS_U64] <;> omega

/-- What is decoded is the number that was written. -/
theorem Pair.deserialize_eq_some_iff (pair : Pair) {v : Json} {o : Option Nat} :
    pair.deserialize v = some o ↔
      (pair.both v || pair.decoderOnly v) = true ∧ o = denoted v := by
  by_cases hnull : v = .null
  · subst hnull
    rw [pair.deserialize_null]
    cases pair <;> simp [both, decoderOnly, denoted, nullable, eq_comm]
  · rw [pair.deserialize_of_ne_null hnull]
    cases v with
    | null => exact absurd rfl hnull
    | bool b => simp [lenientInt, IntOrStr.decode, both, decoderOnly]
    | array items => simp [lenientInt, IntOrStr.decode, both, decoderOnly]
    | object fields => simp [lenientInt, IntOrStr.decode, both, decoderOnly]
    | number literal =>
        rw [lenientInt_number]
        rcases hn : digitsToNat literal.toList with _ | n
        · simp [both, decoderOnly, hn]
        · have hdenoted : denoted (.number literal) = some n := by
            rw [denoted, integerValue_of_digits hn]
            rfl
          rw [Option.bind_some, hdenoted]
          by_cases hrange : n ≤ pair.maximum
          · rw [if_pos (pair.le_maximum_iff.mp hrange), Option.filter_some]
            by_cases hmin : pair.minimum ≤ n <;>
              simp [both, decoderOnly, hn, hrange, hmin, eq_comm]
          · rw [if_neg (mt pair.le_maximum_iff.mpr hrange)]
            simp [both, decoderOnly, hn, hrange]
    | string s =>
        rw [lenientInt_string]
        rcases hn : digitsToNat s.toList with _ | n
        · simp [both, decoderOnly, hn]
        · have hdenoted : denoted (.string s) = some n := hn
          rw [Option.bind_some, hdenoted]
          by_cases hbound : n < pair.bound
          · rw [if_pos hbound, Option.filter_some]
            by_cases hmatches : pair.pattern.matches s = true
            · have hmin := minimum_le_of_matches hmatches hn
              simp [both, decoderOnly, hn, hbound, hmatches, hmin, eq_comm]
            · by_cases hmin : pair.minimum ≤ n <;>
                simp [both, decoderOnly, hn, hbound, hmatches, hmin, eq_comm]
          · rw [if_neg hbound]
            simp [both, decoderOnly, hn, hbound]

/-- What the deserializer accepts. -/
theorem Pair.deserialize_accepts (pair : Pair) (v : Json) :
    (pair.deserialize v).isSome = (pair.both v || pair.decoderOnly v) := by
  rw [Bool.eq_iff_iff, Option.isSome_iff_exists]
  constructor
  · rintro ⟨o, ho⟩
    exact (pair.deserialize_eq_some_iff.mp ho).1
  · intro h
    exact ⟨denoted v, pair.deserialize_eq_some_iff.mpr ⟨h, rfl⟩⟩

theorem Pair.schemaOnly_disjoint (pair : Pair) {v : Json} (h : pair.schemaOnly v = true) :
    pair.both v = false ∧ pair.decoderOnly v = false := by
  cases v with
  | number literal =>
      simp only [schemaOnly, Bool.and_eq_true, Option.isNone_iff_eq_none] at h
      simp [both, decoderOnly, h.1]
  | string s =>
      simp only [schemaOnly, Bool.and_eq_true] at h
      rcases hn : digitsToNat s.toList with _ | n
      · simp [both, decoderOnly, hn]
      · have hbound : ¬n < pair.bound := by simpa [hn] using h.2
        simp [both, decoderOnly, hn, h.1, hbound]
  | _ => cases h

theorem Pair.decoderOnly_disjoint (pair : Pair) {v : Json} (h : pair.decoderOnly v = true) :
    pair.both v = false := by
  cases v with
  | string s =>
      simp only [decoderOnly, Bool.and_eq_true, Bool.not_eq_true'] at h
      simp [both, h.1]
  | _ => cases h

/-! ## The selector -/

/-- What one side takes as a UID. -/
def schemaUid (v : Json) : Bool := Pair.nonzeroU32.both v || Pair.nonzeroU32.schemaOnly v

def decoderUid (v : Json) : Bool := Pair.nonzeroU32.both v || Pair.nonzeroU32.decoderOnly v

/-- An array of at most 100 UIDs, at least one. -/
def batchOf (uid : Json → Bool) : Json → Bool
  | .array items =>
      decide (1 ≤ items.length ∧ items.length ≤ MAX_BATCH_UIDS) && items.all uid
  | _ => false

def anyItem (p : Json → Bool) : Json → Bool
  | .array items => items.any p
  | _ => false

/-- A field that is not null. -/
def present : Option Json → Option Json
  | some .null => none
  | v => v

theorem schemaNonzeroU32_eq : schemaNonzeroU32 = schemaUid :=
  funext fun v => Pair.nonzeroU32.schema_accepts v

theorem schemaBoundedUids_eq : schemaBoundedUids = batchOf schemaUid := by
  funext v
  rw [schemaBoundedUids, schemaNonzeroU32_eq]
  cases v <;> rfl

theorem nonzeroU32_isSome (v : Json) : (nonzeroU32 v).isSome = decoderUid v := by
  rw [decoderUid, ← Pair.deserialize_accepts, Pair.deserialize, Option.isSome_map]

theorem nonzeroU32_denoted {v : Json} {uid : NonZeroU32} (h : nonzeroU32 v = some uid) :
    denoted v = some uid.val := by
  have hdeserialize : Pair.nonzeroU32.deserialize v = some (some uid.val) := by
    rw [Pair.deserialize, h]
    rfl
  exact (Pair.nonzeroU32.deserialize_eq_some_iff.mp hdeserialize).2.symm

theorem map_of_mapM {α β γ : Type} {f : α → Option β} {g : α → Option γ} {k : β → γ}
    (hg : ∀ {a b}, f a = some b → g a = some (k b)) {l : List α} {bs : List β}
    (h : l.mapM f = some bs) : l.map g = bs.map fun b => some (k b) := by
  rw [← List.forall₂_eq_eq_eq, List.forall₂_map_left_iff, List.forall₂_map_right_iff]
  exact (mapM_eq_some_iff.mp h).imp fun _ _ hb => hg hb

theorem boundedUids_isSome (v : Json) : (boundedUids v).isSome = batchOf decoderUid v := by
  unfold boundedUids Json.asVec
  cases v with
  | array items =>
      have hall : (items.mapM nonzeroU32).isSome = items.all decoderUid := by
        rw [mapM_isSome]
        simp only [nonzeroU32_isSome]
      rw [Json.asArray, Option.bind_some, batchOf, ← hall]
      rcases hmap : items.mapM nonzeroU32 with _ | uids
      · simp
      · have hlength := (mapM_eq_some_iff.mp hmap).length_eq
        have hne : uids ≠ [] ↔ 1 ≤ uids.length := by
          rw [Nat.one_le_iff_ne_zero, Ne, Ne, List.length_eq_zero_iff]
        rw [Option.bind_some, hlength]
        by_cases hrange : uids ≠ [] ∧ uids.length ≤ MAX_BATCH_UIDS
        · rw [dif_pos hrange, decide_eq_true ⟨hne.mp hrange.1, hrange.2⟩]
          rfl
        · rw [dif_neg hrange, decide_eq_false fun h => hrange ⟨hne.mpr h.1, h.2⟩]
          rfl
  | _ => rfl

/-- The numbers of a selector are those that its field denotes. -/
def UidSelector.Denotes (v : Json) : UidSelector → Prop
  | .single uid => ∃ fields w, wireFields v = some (some w, fields) ∧ denoted w = some uid.val
  | .batch uids => ∃ fields items, wireFields v = some (fields, some (.array items)) ∧
      items.map denoted = uids.val.map fun uid => some uid.val

/-- What the deserializer takes: one of the two fields, the other missing or null. -/
def selectorOf (uid uids : Option Json) : Bool :=
  match present uid, present uids with
  | some u, none => decoderUid u
  | none, some w => batchOf decoderUid w
  | _, _ => false

theorem optional_eq {α : Type} (decode : Json → Option α) (v : Option Json) :
    Json.optional decode v =
      match present v with
      | none => some none
      | some w => (decode w).map some := by
  rcases v with _ | v
  · rfl
  · cases v <;> rfl

theorem present_eq_some {v : Option Json} {w : Json} (h : present v = some w) : v = some w := by
  rcases v with _ | v
  · cases h
  · cases v with
    | null => cases h
    | _ => exact h

theorem deserialize_of_wireFields {v : Json} {uid uids : Option Json}
    (h : wireFields v = some (uid, uids)) :
    (UidSelector.deserialize v).isSome = selectorOf uid uids ∧
      ∀ selector, UidSelector.deserialize v = some selector → selector.Denotes v := by
  have hdeserialize : UidSelector.deserialize v =
      (optNonzeroU32 uid).bind fun uid => (Json.optional boundedUids uids).bind fun uids =>
        match uid, uids with
        | some uid, none => some (.single uid)
        | none, some uids => some (.batch uids)
        | _, _ => none := by
    unfold UidSelector.deserialize
    rw [h]
    rfl
  rw [hdeserialize, optNonzeroU32, optional_eq, optional_eq, selectorOf]
  rcases hu : present uid with _ | u <;> rcases hw : present uids with _ | w
  · exact ⟨rfl, nofun⟩
  · dsimp only
    rw [← boundedUids_isSome]
    rcases hbatch : boundedUids w with _ | batch
    · exact ⟨rfl, nofun⟩
    · refine ⟨rfl, ?_⟩
      rintro selector ⟨⟩
      obtain ⟨decoded, hdecoded, hrange⟩ := Option.bind_eq_some_iff.mp hbatch
      obtain ⟨items, hitems, hmap⟩ := Option.bind_eq_some_iff.mp hdecoded
      split at hrange
      · cases hrange
        refine ⟨uid, items, ?_, map_of_mapM nonzeroU32_denoted hmap⟩
        cases w with
        | array _ =>
            cases hitems
            rw [h, present_eq_some hw]
        | _ => cases hitems
      · cases hrange
  · dsimp only
    rw [← nonzeroU32_isSome]
    rcases hsingle : nonzeroU32 u with _ | single
    · exact ⟨rfl, nofun⟩
    · refine ⟨rfl, ?_⟩
      rintro selector ⟨⟩
      exact ⟨uids, u, by rw [h, present_eq_some hu], nonzeroU32_denoted hsingle⟩
  · dsimp only
    rcases nonzeroU32 u with _ | single
    · exact ⟨rfl, nofun⟩
    · rcases boundedUids w with _ | batch
      · exact ⟨rfl, nofun⟩
      · exact ⟨rfl, nofun⟩

theorem deserialize_of_no_wireFields {v : Json} (h : wireFields v = none) :
    UidSelector.deserialize v = none := by
  unfold UidSelector.deserialize
  rw [h]
  rfl

theorem any_present {p : Json → Bool} (hnull : p .null = false) (v : Option Json) :
    (v.isSome && v.all p) = (present v).any p := by
  rcases v with _ | v
  · rfl
  · cases v with
    | null => exact hnull
    | _ => rfl

/-- What the schema takes: an object with one of the two fields. -/
theorem schemaUidSelector_eq (v : Json) :
    schemaUidSelector v =
      match v with
      | .object fields =>
          (present (fields.lookup "uid")).any schemaUid ||
            (present (fields.lookup "uids")).any (batchOf schemaUid)
      | _ => false := by
  unfold schemaUidSelector Schema.anyOf
  rw [schemaNonzeroU32_eq, schemaBoundedUids_eq]
  cases v with
  | object fields =>
      have huid := any_present (p := schemaUid) rfl (fields.lookup "uid")
      have huids := any_present (p := batchOf schemaUid) rfl (fields.lookup "uids")
      simp [Schema.object, ← huid, ← huids]
  | _ => rfl

/-! ## The main result -/

/-- What is published and decoded. -/
inductive Published where
  | pair (pair : Pair)
  | uidSelector
deriving DecidableEq, Repr

/-- Both sides accept the value or none does, and what is decoded is what was written. -/
def Agrees : Published → Json → Prop
  | .pair pair, v =>
      pair.schema v = (pair.deserialize v).isSome ∧
        ∀ o, pair.deserialize v = some o → o = denoted v
  | .uidSelector, v =>
      schemaUidSelector v = (UidSelector.deserialize v).isSome ∧
        ∀ selector, UidSelector.deserialize v = some selector → selector.Denotes v

def batchSynced (w : Json) : Bool :=
  !(batchOf schemaUid w && anyItem Pair.nonzeroU32.schemaOnly w) &&
    !(batchOf decoderUid w && anyItem Pair.nonzeroU32.decoderOnly w)

/-- No value is written in a way that one side alone takes. -/
def Synced : Published → Json → Prop
  | .pair pair, v => pair.schemaOnly v = false ∧ pair.decoderOnly v = false
  | .uidSelector, .object fields =>
      match present (fields.lookup "uid"), present (fields.lookup "uids") with
      | none, none => True
      | some u, none =>
          Pair.nonzeroU32.schemaOnly u = false ∧ Pair.nonzeroU32.decoderOnly u = false
      | none, some w => batchSynced w = true
      | some u, some w => schemaUid u = false ∧ batchOf schemaUid w = false
  | .uidSelector, v => ∀ uid uids, wireFields v = some (uid, uids) → selectorOf uid uids = false

theorem Pair.synced_iff (pair : Pair) (v : Json) :
    (pair.both v || pair.schemaOnly v) = (pair.both v || pair.decoderOnly v) ↔
      pair.schemaOnly v = false ∧ pair.decoderOnly v = false := by
  have hschema := pair.schemaOnly_disjoint (v := v)
  have hdecoder := pair.decoderOnly_disjoint (v := v)
  cases hs : pair.schemaOnly v <;> cases hd : pair.decoderOnly v <;> simp_all

theorem all_of_not_any {α : Type} {both only : α → Bool} {l : List α}
    (hall : (l.all fun a => both a || only a) = true) (hany : l.any only = false) :
    l.all both = true := by
  rw [List.all_eq_true] at hall ⊢
  intro a ha
  have hnot : only a = false := by
    rw [List.any_eq_false] at hany
    simpa using hany a ha
  simpa [hnot] using hall a ha

theorem all_or {α : Type} {both : α → Bool} {l : List α} (h : l.all both = true)
    (only : α → Bool) : (l.all fun a => both a || only a) = true := by
  rw [List.all_eq_true] at h ⊢
  intro a ha
  simp [h a ha]

/-- An item that one side alone takes is not taken by the other. -/
theorem not_all_of_any {α : Type} {both only other : α → Bool} {l : List α}
    (honly : ∀ a, only a = true → both a = false ∧ other a = false)
    (hany : l.any only = true) : (l.all fun a => both a || other a) = false := by
  obtain ⟨a, ha, hitem⟩ := List.any_eq_true.mp hany
  rw [List.all_eq_false]
  exact ⟨a, ha, by simp [honly a hitem]⟩

theorem batchSynced_iff (w : Json) :
    batchOf schemaUid w = batchOf decoderUid w ↔ batchSynced w = true := by
  cases w with
  | array items =>
      have hschemaOnly (v : Json) (h : Pair.nonzeroU32.schemaOnly v = true) :=
        Pair.nonzeroU32.schemaOnly_disjoint h
      have hdecoderOnly (v : Json) (h : Pair.nonzeroU32.decoderOnly v = true) :
          Pair.nonzeroU32.both v = false ∧ Pair.nonzeroU32.schemaOnly v = false := by
        refine ⟨Pair.nonzeroU32.decoderOnly_disjoint h, ?_⟩
        by_contra hschema
        rw [(hschemaOnly v (by simpa using hschema)).2] at h
        cases h
      have hschema : items.all schemaUid = true →
          items.any Pair.nonzeroU32.schemaOnly = false → items.all decoderUid = true :=
        fun hall hany => all_or (all_of_not_any hall hany) _
      have hdecoder : items.all decoderUid = true →
          items.any Pair.nonzeroU32.decoderOnly = false → items.all schemaUid = true :=
        fun hall hany => all_or (all_of_not_any hall hany) _
      have hnotDecoder : items.any Pair.nonzeroU32.schemaOnly = true →
          items.all decoderUid = false := not_all_of_any hschemaOnly
      have hnotSchema : items.any Pair.nonzeroU32.decoderOnly = true →
          items.all schemaUid = false := not_all_of_any hdecoderOnly
      rw [batchSynced, batchOf, batchOf, anyItem, anyItem]
      generalize items.all schemaUid = takenBySchema at *
      generalize items.all decoderUid = takenByDecoder at *
      generalize items.any Pair.nonzeroU32.schemaOnly = onlySchema at *
      generalize items.any Pair.nonzeroU32.decoderOnly = onlyDecoder at *
      generalize decide (1 ≤ items.length ∧ items.length ≤ MAX_BATCH_UIDS) = inRange
      revert hschema hdecoder hnotDecoder hnotSchema
      revert takenBySchema takenByDecoder onlySchema onlyDecoder inRange
      decide
  | _ => exact iff_of_true rfl rfl

/-- **Schemas and deserializers.**  They agree exactly on the values that are not written
    in a way that one side alone takes, and of a selector has one shape. -/
theorem agrees_iff_synced (published : Published) (v : Json) :
    Agrees published v ↔ Synced published v := by
  cases published with
  | pair pair =>
      rw [Agrees, Synced, ← pair.synced_iff, pair.schema_accepts, pair.deserialize_accepts]
      exact and_iff_left fun o ho => (pair.deserialize_eq_some_iff.mp ho).2
  | uidSelector =>
      have hfields {uid uids : Option Json} (hwire : wireFields v = some (uid, uids)) :
          Agrees .uidSelector v ↔ schemaUidSelector v = selectorOf uid uids := by
        obtain ⟨hsome, hdenotes⟩ := deserialize_of_wireFields hwire
        rw [Agrees, hsome]
        exact and_iff_left hdenotes
      have hscalar (hschema : schemaUidSelector v = false) :
          Agrees .uidSelector v ↔
            ∀ uid uids, wireFields v = some (uid, uids) → selectorOf uid uids = false := by
        rcases hwire : wireFields v with _ | ⟨uid, uids⟩
        · rw [Agrees, hschema, deserialize_of_no_wireFields hwire]
          exact iff_of_true ⟨rfl, nofun⟩ nofun
        · rw [hfields hwire, hschema, eq_comm]
          constructor
          · rintro h _ _ ⟨⟩
            exact h
          · intro h
            exact h uid uids rfl
      cases v with
      | object fields =>
          rw [hfields rfl, schemaUidSelector_eq, Synced, selectorOf]
          dsimp only
          rcases present (fields.lookup "uid") with _ | u <;>
            rcases present (fields.lookup "uids") with _ | w
          · exact iff_of_true rfl trivial
          · dsimp only
            rw [← batchSynced_iff, Option.any_none, Option.any_some, Bool.false_or]
          · dsimp only
            rw [← Pair.synced_iff, Option.any_none, Option.any_some, Bool.or_false]
            rfl
          · dsimp only
            rw [Option.any_some, Option.any_some, Bool.or_eq_false_iff]
      | _ => exact hscalar (schemaUidSelector_eq _)

/-- An object with both shapes is published as accepted and refused. -/
theorem schemaUidSelector_accepts_both :
    ¬∀ (published : Published) (v : Json), Agrees published v := by
  intro hall
  have haccepts := (hall .uidSelector
    (.object [("uid", .number "1"), ("uids", .array [.number "2"])])).1
  rw [(deserialize_of_wireFields rfl).1, schemaUidSelector_eq] at haccepts
  have huid : schemaUid (.number "1") = true := by decide
  have hwritten : (schemaUid (.number "1") || batchOf schemaUid (.array [.number "2"])) = false :=
    haccepts
  rw [huid] at hwritten
  cases hwritten

end RustyImap.LenientInt
