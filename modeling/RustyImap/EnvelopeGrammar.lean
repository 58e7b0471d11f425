import RustyImap.InboundBridge
import RustyImap.ValueCodec

/-!
# The grammar of an envelope

What `validate` (`rimap-server/src/mcp/wire_validator/envelope.rs`) is to let through,
said of the tree of a line, in which a key may stand more than once.

`validate` reads a line twice: a streaming reader looks for repeated keys in the first
value, then the whole line becomes a `Value`, in which the last field of a name stays.  On
a JSON text the two agree.  On any other line the first may still find what it looks for,
and then its verdict comes first.
-/

namespace RustyImap.InboundBridge

open RustyImap.LabelledRuns RustyImap.SeparatedLines
open RustyImap.AuditLog (Bytes LF CR utf8)
open Record (readValue readFields)

/-! ## Trees -/

def keys {α : Type} (fields : List (String × α)) : List String := fields.map Prod.fst

def levelOf : Json → Level
  | .object fields => .map (keys fields)
  | _ => .other

def levels (fields : List (String × Json)) : List (String × Level) :=
  fields.map fun field => (field.1, levelOf field.2)

def shapeOf : Json → Shape
  | .object fields => .map (levels fields)
  | _ => .other

/-- How `serde_json` reads the lines that `document` gives a tree, the JSON texts: what is
    printed for a float (`readFloat`) has a point or an exponent. -/
structure Codec.Reads (codec : Codec) (document : String → Option Json)
    (readFloat : String → Option String) : Prop where
  blank : ∀ line, isBlank line = true → document line = none
  refused : ∀ line, document line = none → codec.fromStr line = none
  read : ∀ line v, document line = some v →
    ∃ w, readValue readFloat v = some w ∧ codec.fromStr line = some w
  streamed : ∀ line v, document line = some v → codec.deserialize line = some (shapeOf v)
  float : ∀ literal text, readFloat literal = some text → (Json.number text).asI64 = none

/-! ## The grammar -/

/-- No key stands twice at the top level or directly inside `error`. -/
structure Unrepeated (entries : List (String × Level)) : Prop where
  top : (keys entries).Nodup
  error : ∀ inner, ("error", .map inner) ∈ entries → inner.Nodup

inductive IsId : Json → Prop
  | string (s : String) : IsId (.string s)
  | int (v : Json) (n : Int) (h : v.asI64 = some n) : IsId v

/-- Null, or an object whose `_meta` stands at most once and is an object or null. -/
inductive IsParams : Json → Prop
  | null : IsParams .null
  | object (inner : List (String × Json)) (once : (keys inner).count "_meta" ≤ 1)
      (hmeta : ∀ v, ("_meta", v) ∈ inner → v = .null ∨ ∃ fields, v = .object fields) :
      IsParams (.object inner)

/-- An `i32` code and a string message. -/
inductive IsError : Json → Prop
  | object (inner : List (String × Json)) (code : Json) (n : Int) (message : String)
      (hcode : ("code", code) ∈ inner) (hn : code.asI64 = some n)
      (hrange : -2147483648 ≤ n ∧ n ≤ 2147483647)
      (hmessage : ("message", .string message) ∈ inner) : IsError (.object inner)

/-- A method is called. -/
structure IsCall (fields : List (String × Json)) : Prop where
  method : ∃ name, ("method", .string name) ∈ fields
  result : "result" ∉ keys fields
  error : "error" ∉ keys fields
  params : ∀ v, ("params", v) ∈ fields → IsParams v

inductive IsMessage (fields : List (String × Json)) : Prop
  | request (hid : "id" ∈ keys fields) (hcall : IsCall fields)
  | notification (hid : "id" ∉ keys fields) (hcall : IsCall fields)
  | result (hid : "id" ∈ keys fields) (hresult : "result" ∈ keys fields)
      (hmethod : "method" ∉ keys fields) (herror : "error" ∉ keys fields)
  | error (hid : "id" ∈ keys fields) (v : Json) (herror : ("error", v) ∈ fields)
      (hv : IsError v) (hmethod : "method" ∉ keys fields) (hresult : "result" ∉ keys fields)

structure Grammar (fields : List (String × Json)) : Prop where
  version : ("jsonrpc", .string "2.0") ∈ fields
  unrepeated : Unrepeated (levels fields)
  id : ∀ v, ("id", v) ∈ fields → IsId v
  message : IsMessage fields

def Rejects (codec : Codec) (line : String) (code : Int) : Prop :=
  ∃ env, validate codec line = .reject env ∧ env.code = code

/-- The verdict on a line is the one that the grammar gives, and so is the id that is
    echoed. -/
structure Validates (codec : Codec) (document : String → Option Json) (line : String) :
    Prop where
  skip : validate codec line = .skip ↔ ∀ c ∈ line.toList, isWhitespace c = true
  parseError : Rejects codec line (-32700) ↔ isBlank line = false ∧ document line = none
  forward : validate codec line = .forward ↔
    ∃ fields, document line = some (.object fields) ∧ Grammar fields
  invalidRequest : Rejects codec line (-32600) ↔
    ∃ v, document line = some v ∧ ∀ fields, v = .object fields → ¬Grammar fields
  echo : ∀ env v, validate codec line = .reject env → ((env.id = v ∧ v ≠ .null) ↔
    ∃ fields, document line = some (.object fields) ∧ Unrepeated (levels fields) ∧
      ("id", v) ∈ fields ∧ IsId v)

/-- A line that is no JSON text, with a repeated key in what the streaming reader reads of
    it. -/
def Misread (codec : Codec) (document : String → Option Json) (line : String) : Prop :=
  isBlank line = false ∧ document line = none ∧
    ∃ entries, codec.deserialize line = some (.map entries) ∧ ¬Unrepeated entries

/-! ## Blank lines -/

theorem isBlank_iff (line : String) :
    isBlank line = true ↔ ∀ c ∈ line.toList, isWhitespace c = true := by
  unfold isBlank trim
  rw [List.isEmpty_iff, List.reverse_eq_nil_iff, List.dropWhile_eq_nil_iff]
  constructor
  · intro h
    rw [← List.dropWhile_eq_nil_iff]
    by_contra hne
    have hhead := List.head_dropWhile_not isWhitespace hne
    have hspace := h _ (List.mem_reverse.mpr (List.head_mem hne))
    rw [hhead] at hspace
    cases hspace
  · intro h c hc
    exact h c ((List.dropWhile_suffix _).subset (List.mem_reverse.mp hc))

/-! ## The streaming reader -/

theorem exists_repeat_cons {counted : String → Prop} {seen rest : List String} {k : String} :
    (∃ key ∈ k :: rest, counted key ∧ 1 < seen.count key + (k :: rest).count key) ↔
      (k ∈ seen ∧ counted k) ∨
        ∃ key ∈ rest, counted key ∧ 1 < (k :: seen).count key + rest.count key := by
  have hcount (key : String) : (k :: seen).count key + rest.count key =
      seen.count key + (k :: rest).count key := by
    rw [List.count_cons, List.count_cons]
    omega
  simp only [hcount]
  constructor
  · rintro ⟨key, hkey, hcounted, hrepeat⟩
    by_cases hrest : key ∈ rest
    · exact .inr ⟨key, hrest, hcounted, hrepeat⟩
    · obtain rfl : key = k := (List.mem_cons.mp hkey).resolve_right hrest
      rw [List.count_cons_self, List.count_eq_zero_of_not_mem hrest] at hrepeat
      exact .inl ⟨List.count_pos_iff.mp (by omega), hcounted⟩
  · rintro (⟨hseen, hcounted⟩ | ⟨key, hkey, hcounted, hrepeat⟩)
    · have hpos := List.count_pos_iff.mpr hseen
      refine ⟨k, List.mem_cons_self, hcounted, ?_⟩
      rw [List.count_cons_self]
      omega
    · exact ⟨key, List.mem_cons_of_mem _ hkey, hcounted, hrepeat⟩

/-- The loop of `OneLevelDupCheck`. -/
theorem foldl_oneLevelDupCheck (only : Option String) (names seen : List String) (dup : Bool) :
    (names.foldl (fun (seen, dup) key =>
      let counted := only.all fun only => only == key
      (key :: seen, dup || (seen.contains key && counted))) (seen, dup)).2 = true ↔
      dup = true ∨ ∃ key ∈ names, (only.all (· == key)) = true ∧
        1 < seen.count key + names.count key := by
  induction names generalizing seen dup with
  | nil => simp
  | cons k rest ih =>
      rw [List.foldl_cons]
      dsimp only
      rw [ih, exists_repeat_cons, Bool.or_eq_true, Bool.and_eq_true, List.contains_iff_mem,
        or_assoc]

theorem oneLevelDupCheck_iff (only : Option String) (names : List String) :
    oneLevelDupCheck only (.map names) = true ↔
      ∃ key ∈ names, (only.all (· == key)) = true ∧ 1 < names.count key := by
  rw [oneLevelDupCheck, foldl_oneLevelDupCheck]
  simp

theorem oneLevelDupCheck_none (names : List String) :
    oneLevelDupCheck none (.map names) = false ↔ names.Nodup := by
  rw [← Bool.not_eq_true, oneLevelDupCheck_iff, List.nodup_iff_count_le_one]
  constructor
  · intro h key
    by_contra hcount
    have hmem := List.count_pos_iff.mp (show 0 < names.count key by omega)
    exact h ⟨key, hmem, rfl, by omega⟩
  · rintro h ⟨key, -, -, hcount⟩
    have hle := h key
    omega

theorem oneLevelDupCheck_some (key : String) (names : List String) :
    oneLevelDupCheck (some key) (.map names) = false ↔ names.count key ≤ 1 := by
  rw [← Bool.not_eq_true, oneLevelDupCheck_iff]
  constructor
  · intro h
    by_contra hcount
    have hmem := List.count_pos_iff.mp (show 0 < names.count key by omega)
    exact h ⟨key, hmem, by simp, by omega⟩
  · rintro h ⟨key', -, hkey, hcount⟩
    obtain rfl : key = key' := by simpa using hkey
    omega

/-- The findings after one more entry. -/
def noted (seen : List String) (found : DuplicateKeys) (entry : String × Level) :
    DuplicateKeys where
  envelope := found.envelope || (entry.1 == "error" && oneLevelDupCheck none entry.2) ||
    seen.contains entry.1
  paramsMeta := found.paramsMeta ||
    (entry.1 == "params" && oneLevelDupCheck (some "_meta") entry.2)

theorem topAndErrorDupCheck_map (entries : List (String × Level)) :
    topAndErrorDupCheck (.map entries) =
      (entries.foldl (fun state entry => (entry.1 :: state.1, noted state.1 state.2 entry))
        (([] : List String), ⟨false, false⟩)).2 := by
  unfold topAndErrorDupCheck
  dsimp only
  congr 2
  funext ⟨seen, found⟩ ⟨key, level⟩
  refine Prod.ext rfl ?_
  dsimp only [noted]
  by_cases herror : key = "error"
  · subst herror
    cases seen.contains "error" <;> simp
  · by_cases hparams : key = "params"
    · subst hparams
      cases seen.contains "params" <;> simp
    · have hnoError := beq_eq_false_iff_ne.mpr herror
      have hnoParams := beq_eq_false_iff_ne.mpr hparams
      cases seen.contains key <;> simp [herror, hparams, hnoError, hnoParams]

theorem foldl_noted (entries : List (String × Level)) (seen : List String)
    (found : DuplicateKeys) :
    let reached := (entries.foldl
      (fun state entry => (entry.1 :: state.1, noted state.1 state.2 entry)) (seen, found)).2
    (reached.envelope = true ↔ found.envelope = true ∨
      (∃ level, ("error", level) ∈ entries ∧ oneLevelDupCheck none level = true) ∨
      ∃ key ∈ keys entries, True ∧ 1 < seen.count key + (keys entries).count key) ∧
    (reached.paramsMeta = true ↔ found.paramsMeta = true ∨
      ∃ level, ("params", level) ∈ entries ∧
        oneLevelDupCheck (some "_meta") level = true) := by
  induction entries generalizing seen found with
  | nil => simp [keys]
  | cons entry rest ih =>
      obtain ⟨key, level⟩ := entry
      have hcons (name : String) (p : Level → Bool) :
          (∃ l, (name, l) ∈ (key, level) :: rest ∧ p l = true) ↔
            ((key == name) && p level) = true ∨ ∃ l, (name, l) ∈ rest ∧ p l = true := by
        simp only [List.mem_cons, Prod.mk.injEq, or_and_right, exists_or, Bool.and_eq_true,
          beq_iff_eq]
        refine or_congr_left ⟨?_, ?_⟩
        · rintro ⟨l, ⟨rfl, rfl⟩, hl⟩
          exact ⟨rfl, hl⟩
        · rintro ⟨rfl, hl⟩
          exact ⟨level, ⟨rfl, rfl⟩, hl⟩
      have hkeys : keys ((key, level) :: rest) = key :: keys rest := rfl
      obtain ⟨henvelope, hparams⟩ := ih (key :: seen) (noted seen found (key, level))
      rw [List.foldl_cons]
      refine ⟨henvelope.trans ?_, hparams.trans ?_⟩
      · rw [hcons, hkeys, exists_repeat_cons]
        simp only [noted, Bool.or_eq_true, List.contains_iff_mem, and_true]
        simp only [or_assoc, or_left_comm]
      · rw [hcons]
        simp only [noted, Bool.or_eq_true, or_assoc]

theorem envelope_eq_false_iff (entries : List (String × Level)) :
    (topAndErrorDupCheck (.map entries)).envelope = false ↔ Unrepeated entries := by
  rw [topAndErrorDupCheck_map, ← Bool.not_eq_true, (foldl_noted entries [] _).1]
  simp only [Bool.false_eq_true, false_or, not_or, not_exists, not_and, Bool.not_eq_true,
    List.count_nil, Nat.zero_add, true_and, not_lt]
  constructor
  · rintro ⟨herror, htop⟩
    refine ⟨List.nodup_iff_count_le_one.mpr fun key => ?_, fun inner hinner => ?_⟩
    · by_cases hkey : key ∈ keys entries
      · exact htop key hkey
      · rw [List.count_eq_zero_of_not_mem hkey]
        exact Nat.zero_le 1
    · exact (oneLevelDupCheck_none inner).mp (herror _ hinner)
  · intro h
    refine ⟨fun level hlevel => ?_, fun key _ => List.nodup_iff_count_le_one.mp h.top key⟩
    cases level with
    | map inner => exact (oneLevelDupCheck_none inner).mpr (h.error inner hlevel)
    | other => rfl

theorem paramsMeta_eq_false_iff (entries : List (String × Level)) :
    (topAndErrorDupCheck (.map entries)).paramsMeta = false ↔
      ∀ inner, ("params", .map inner) ∈ entries → inner.count "_meta" ≤ 1 := by
  rw [topAndErrorDupCheck_map, ← Bool.not_eq_true, (foldl_noted entries [] _).2]
  simp only [Bool.false_eq_true, false_or, not_exists, not_and, Bool.not_eq_true]
  constructor
  · intro h inner hinner
    exact (oneLevelDupCheck_some "_meta" inner).mp (h _ hinner)
  · intro h level hlevel
    cases level with
    | map inner => exact (oneLevelDupCheck_some "_meta" inner).mpr (h inner hlevel)
    | other => rfl

/-! ## What is read -/

section

variable {readFloat : String → Option String} {fields gs : List (String × Json)} {key : String}

theorem mem_keys {α : Type} {fields : List (String × α)} :
    key ∈ keys fields ↔ ∃ v, (key, v) ∈ fields := by
  rw [keys, List.mem_map]
  constructor
  · rintro ⟨⟨k, v⟩, hmem, rfl⟩
    exact ⟨v, hmem⟩
  · rintro ⟨v, hmem⟩
    exact ⟨(key, v), hmem, rfl⟩

theorem eq_of_count_le_one {α : Type} {fields : List (String × α)}
    (honce : (keys fields).count key ≤ 1) {v w : α} (hv : (key, v) ∈ fields)
    (hw : (key, w) ∈ fields) : v = w := by
  induction fields with
  | nil => cases hv
  | cons field rest ih =>
      have hrepeat {u : α} (hu : (key, u) ∈ rest) (hkey : key = field.1) : False := by
        have hpos := List.count_pos_iff.mpr (mem_keys.mpr ⟨u, hu⟩)
        rw [keys, List.map_cons, ← hkey, List.count_cons_self] at honce
        change 0 < (rest.map Prod.fst).count key at hpos
        omega
      rcases List.mem_cons.mp hv with hfirst | hv
      · rcases List.mem_cons.mp hw with hfirst' | hw
        · exact congrArg Prod.snd (hfirst.trans hfirst'.symm)
        · exact (hrepeat hw (congrArg Prod.fst hfirst)).elim
      · rcases List.mem_cons.mp hw with hfirst' | hw
        · exact (hrepeat hv (congrArg Prod.fst hfirst')).elim
        · exact ih (le_trans (List.count_le_count_cons) honce) hv hw

theorem get_ofList (key : String) :
    get (OrderedMap.ofList gs).entries key = gs.reverse.lookup key := by
  rw [← OrderedMap.get_ofList, OrderedMap.get, get]
  generalize (OrderedMap.ofList gs).entries = entries
  induction entries with
  | nil => rfl
  | cons entry rest ih =>
      obtain ⟨k, v⟩ := entry
      rw [List.find?_cons, List.lookup_cons, Bool.beq_comm (a := key)]
      cases k == key with
      | true => rfl
      | false => exact ih

theorem get_eq_none_iff (hread : readFields readFloat fields = some gs) :
    get (OrderedMap.ofList gs).entries key = none ↔ key ∉ keys fields := by
  have hkeys : keys fields = keys gs :=
    Record.map_fst_eq_of_forall₂ (Record.readFields_eq_some.mp hread)
  rw [get_ofList, List.lookup_eq_none_iff, hkeys, mem_keys]
  simp only [List.mem_reverse, bne_iff_ne, ne_eq, Prod.forall, not_exists]
  constructor
  · intro h v hv
    simpa using h key v hv
  · rintro h k v hv
    by_contra hkey
    obtain rfl : key = k := by simpa using hkey
    exact h v hv

theorem mem_keys_of_get (hread : readFields readFloat fields = some gs) {w : Json}
    (hget : get (OrderedMap.ofList gs).entries key = some w) : key ∈ keys fields := by
  by_contra habsent
  rw [(get_eq_none_iff hread).mpr habsent] at hget
  cases hget

/-- The field of a name that stands once. -/
theorem get_eq_some_iff (hread : readFields readFloat fields = some gs)
    (honce : (keys fields).count key ≤ 1) {w : Json} :
    get (OrderedMap.ofList gs).entries key = some w ↔
      ∃ v, (key, v) ∈ fields ∧ readValue readFloat v = some w := by
  have hfound {w : Json} (hget : get (OrderedMap.ofList gs).entries key = some w) :
      ∃ v, (key, v) ∈ fields ∧ readValue readFloat v = some w := by
    rw [get_ofList] at hget
    have hmem := List.mem_reverse.mp (OrderedMap.mem_of_lookup_eq_some hget)
    obtain ⟨⟨k, v⟩, hfield, hkey, hv⟩ :=
      ReadLists.exists_of_mem_right (Record.readFields_eq_some.mp hread) hmem
    have hkey : k = key := hkey
    exact ⟨v, hkey ▸ hfield, hv⟩
  refine ⟨hfound, ?_⟩
  rintro ⟨v, hfield, hv⟩
  rcases hget : get (OrderedMap.ofList gs).entries key with _ | w'
  · exact absurd (mem_keys.mpr ⟨v, hfield⟩) ((get_eq_none_iff hread).mp hget)
  · obtain ⟨v', hfield', hv'⟩ := hfound hget
    rw [eq_of_count_le_one honce hfield' hfield, hv] at hv'
    exact hv'.symm

/-! ## Kinds -/

theorem asStr_readValue {v w : Json} (h : readValue readFloat v = some w) :
    w.asStr = v.asStr := by
  cases v with
  | null | bool _ | string _ =>
      cases h
      rfl
  | number _ | array _ | object _ =>
      obtain ⟨_, -, rfl⟩ := Option.map_eq_some_iff.mp h
      rfl

theorem isNull_readValue {v w : Json} (h : readValue readFloat v = some w) :
    w.isNull = v.isNull := by
  cases v with
  | null | bool _ | string _ =>
      cases h
      rfl
  | number _ | array _ | object _ =>
      obtain ⟨_, -, rfl⟩ := Option.map_eq_some_iff.mp h
      rfl

theorem asObject_readValue_object {fields : List (String × Json)} {w : Json}
    (h : readValue readFloat (.object fields) = some w) :
    ∃ gs, readFields readFloat fields = some gs ∧
      w.asObject = some (OrderedMap.ofList gs).entries := by
  obtain ⟨gs, hgs, rfl⟩ := Option.map_eq_some_iff.mp h
  exact ⟨gs, hgs, rfl⟩

theorem asObject_readValue_of_ne {v w : Json} (h : readValue readFloat v = some w)
    (hv : ∀ fields, v ≠ .object fields) : w.asObject = none := by
  cases v with
  | object fields => exact absurd rfl (hv fields)
  | null | bool _ | string _ =>
      cases h
      rfl
  | number _ | array _ =>
      obtain ⟨_, -, rfl⟩ := Option.map_eq_some_iff.mp h
      rfl

theorem digits_eq_digitsToNat (s : List Char) : Json.digits s = digitsToNat s := by
  have hdigit : Char.isDigit = fun c => decide ('0' ≤ c) && decide (c ≤ '9') := rfl
  unfold Json.digits digitsToNat
  rw [hdigit]
  cases s with
  | nil => rfl
  | cons c rest => cases hall : (c :: rest).all _ <;> simp

theorem isInteger_of_minus {literal : String} {rest : List Char}
    (hliteral : literal.toList = '-' :: rest) :
    Record.isInteger literal = (digitsToNat rest).any fun n => 0 < n && n ≤ 2 ^ 63 := by
  unfold Record.isInteger
  rw [hliteral]
  rfl

theorem isInteger_of_not_minus {literal : String}
    (hliteral : ∀ rest, literal.toList ≠ '-' :: rest) :
    Record.isInteger literal = (digitsToNat literal.toList).any fun n => n < 2 ^ 64 := by
  unfold Record.isInteger
  split
  · rename_i rest heq
    exact absurd heq (hliteral rest)
  · rfl

/-- The integers that `as_i64` takes are kept as they are written. -/
theorem isInteger_of_asI64 {literal : String} {n : Int}
    (h : (Json.number literal).asI64 = some n) : Record.isInteger literal = true := by
  dsimp only [Json.asI64] at h
  split at h
  · rename_i rest hliteral
    rw [isInteger_of_minus hliteral, ← digits_eq_digitsToNat]
    split at h
    · rename_i m hdigits
      rw [hdigits]
      split at h
      · rename_i hrange
        simpa using hrange
      · cases h
    · cases h
  · rename_i hminus
    rw [isInteger_of_not_minus hminus, ← digits_eq_digitsToNat]
    split at h
    · rename_i m hdigits
      rw [hdigits]
      split at h
      · rename_i hrange
        rw [Option.any_some, decide_eq_true_eq]
        omega
      · cases h
    · cases h

theorem asI64_readValue (hfloat : ∀ literal text, readFloat literal = some text →
      (Json.number text).asI64 = none) {v w : Json} (h : readValue readFloat v = some w) :
    w.asI64 = v.asI64 := by
  cases v with
  | null | bool _ | string _ =>
      cases h
      rfl
  | array _ | object _ =>
      obtain ⟨_, -, rfl⟩ := Option.map_eq_some_iff.mp h
      rfl
  | number literal =>
      obtain ⟨text, htext, rfl⟩ := Option.map_eq_some_iff.mp h
      unfold Record.readNumber at htext
      split at htext
      · cases htext
        rfl
      · rename_i hinteger
        rw [hfloat literal text htext, eq_comm, Option.eq_none_iff_forall_ne_some]
        intro n hn
        exact hinteger (isInteger_of_asI64 hn)

theorem isForwardableId_iff (v : Json) : isForwardableId v = true ↔ IsId v := by
  unfold isForwardableId
  rw [Bool.or_eq_true, Option.isSome_iff_exists]
  constructor
  · rintro (hstring | ⟨n, hn⟩)
    · cases v with
      | string s => exact .string s
      | _ => cases hstring
    · exact .int v n hn
  · rintro (s | ⟨_, n, hn⟩)
    · exact .inl rfl
    · exact .inr ⟨n, hn⟩

/-- Such an id is read as it stands. -/
theorem readValue_of_isId {v : Json} (h : IsId v) : readValue readFloat v = some v := by
  cases h with
  | string s => rfl
  | int _ n hn =>
      cases v with
      | number literal =>
          have hread : Record.readNumber readFloat literal = some literal :=
            if_pos (isInteger_of_asI64 hn)
          change (Record.readNumber readFloat literal).map Json.number = _
          rw [hread]
          rfl
      | _ => cases hn

theorem isForwardableId_readValue (hfloat : ∀ literal text, readFloat literal = some text →
      (Json.number text).asI64 = none) {v w : Json} (h : readValue readFloat v = some w) :
    isForwardableId w = true ↔ IsId v := by
  rw [← isForwardableId_iff, isForwardableId, isForwardableId, Json.isString, Json.isString,
    asStr_readValue h, asI64_readValue hfloat h]

end

/-! ## Parts of an envelope -/

theorem keys_levels (fields : List (String × Json)) : keys (levels fields) = keys fields := by
  unfold keys levels
  rw [List.map_map]
  rfl

theorem Unrepeated.once {fields : List (String × Json)} (h : Unrepeated (levels fields))
    (key : String) : (keys fields).count key ≤ 1 := by
  rw [← keys_levels]
  exact List.nodup_iff_count_le_one.mp h.top key

theorem mem_levels {fields : List (String × Json)} {key : String} {names : List String} :
    (key, .map names) ∈ levels fields ↔
      ∃ inner, (key, .object inner) ∈ fields ∧ keys inner = names := by
  unfold levels
  rw [List.mem_map]
  constructor
  · rintro ⟨⟨k, v⟩, hfield, hentry⟩
    cases v with
    | object inner =>
        cases hentry
        exact ⟨inner, hfield, rfl⟩
    | _ => cases hentry
  · rintro ⟨inner, hfield, rfl⟩
    exact ⟨_, hfield, rfl⟩

section

variable {readFloat : String → Option String}
  (hfloat : ∀ literal text, readFloat literal = some text → (Json.number text).asI64 = none)

theorem objectOrNull_iff {v w : Json} (hread : readValue readFloat v = some w) :
    (w.asObject.isSome || w.isNull) = true ↔ v = .null ∨ ∃ fields, v = .object fields := by
  rw [isNull_readValue hread]
  by_cases hv : ∃ fields, v = .object fields
  · obtain ⟨fields, rfl⟩ := hv
    obtain ⟨gs, -, hobject⟩ := asObject_readValue_object hread
    rw [hobject]
    exact iff_of_true rfl (.inr ⟨fields, rfl⟩)
  · rw [asObject_readValue_of_ne hread fun fields hfields => hv ⟨fields, hfields⟩]
    simp only [hv, or_false]
    cases v with
    | null => exact iff_of_true rfl rfl
    | _ =>
        refine iff_of_false Bool.false_ne_true ?_
        intro hnull
        cases hnull

theorem isValidParams_iff {v w : Json} (hread : readValue readFloat v = some w)
    (honce : ∀ inner, v = .object inner → (keys inner).count "_meta" ≤ 1) :
    isValidParams w = true ↔ IsParams v := by
  unfold isValidParams
  by_cases hv : ∃ inner, v = .object inner
  · obtain ⟨inner, rfl⟩ := hv
    obtain ⟨gs, hgs, hobject⟩ := asObject_readValue_object hread
    have honce := honce inner rfl
    rw [hobject]
    dsimp only
    rcases hget : get (OrderedMap.ofList gs).entries "_meta" with _ | m
    · refine iff_of_true rfl (.object inner honce ?_)
      intro v hv
      exact absurd (mem_keys.mpr ⟨v, hv⟩) ((get_eq_none_iff hgs).mp hget)
    · obtain ⟨v, hv, hm⟩ := (get_eq_some_iff hgs honce).mp hget
      dsimp only
      rw [objectOrNull_iff hm]
      constructor
      · intro hkind
        refine .object inner honce ?_
        intro v' hv'
        rwa [eq_of_count_le_one honce hv' hv]
      · rintro (_ | ⟨_, _, hmeta⟩)
        exact hmeta v hv
  · rw [asObject_readValue_of_ne hread fun fields hfields => hv ⟨fields, hfields⟩]
    dsimp only
    rw [isNull_readValue hread]
    constructor
    · intro hnull
      cases v with
      | null => exact .null
      | _ => cases hnull
    · rintro (_ | ⟨inner, _, _⟩)
      · rfl
      · exact absurd ⟨inner, rfl⟩ hv

include hfloat in
theorem isWellFormedError_iff {v w : Json} (hread : readValue readFloat v = some w)
    (honce : ∀ inner, v = .object inner → (keys inner).Nodup) :
    isWellFormedError w = true ↔ IsError v := by
  unfold isWellFormedError
  by_cases hv : ∃ inner, v = .object inner
  · obtain ⟨inner, rfl⟩ := hv
    obtain ⟨gs, hgs, hobject⟩ := asObject_readValue_object hread
    have honce (key : String) := List.nodup_iff_count_le_one.mp (honce inner rfl) key
    rw [hobject]
    dsimp only
    simp only [Bool.and_eq_true, Option.any_eq_true, Option.bind_eq_some_iff,
      get_eq_some_iff hgs (honce _), decide_eq_true_eq]
    constructor
    · rintro ⟨⟨n, ⟨w, ⟨code, hcode, hw⟩, hn⟩, hrange⟩, w', ⟨message, hmessage, hw'⟩, hstring⟩
      rw [asI64_readValue hfloat hw] at hn
      rw [Json.isString, asStr_readValue hw'] at hstring
      cases message with
      | string message => exact .object inner code n message hcode hn hrange hmessage
      | _ => cases hstring
    · rintro ⟨_, code, n, message, hcode, hn, hrange, hmessage⟩
      have hcodeRead : readValue readFloat code = some code := readValue_of_isId (.int code n hn)
      exact ⟨⟨n, ⟨code, ⟨code, hcode, hcodeRead⟩, hn⟩, hrange⟩, .string message,
        ⟨.string message, hmessage, rfl⟩, rfl⟩
  · rw [asObject_readValue_of_ne hread fun fields hfields => hv ⟨fields, hfields⟩]
    refine iff_of_false Bool.false_ne_true ?_
    rintro ⟨inner, _⟩
    exact hv ⟨inner, rfl⟩

/-- The condition under which the `match` that `validate` ends with lets a message through. -/
def formed (obj : List (String × Json)) (idPresentAndValid paramsOk : Bool) : Bool :=
  match get obj "method", get obj "result", get obj "error" with
  | some m, none, none => m.isString && paramsOk
  | none, some _, none => idPresentAndValid
  | none, none, some err => idPresentAndValid && isWellFormedError err
  | _, _, _ => false

theorem validateShape_eq (obj : List (String × Json)) (idPresentAndValid paramsOk : Bool) :
    validateShape obj idPresentAndValid paramsOk =
      if formed obj idPresentAndValid paramsOk then .forward
      else .reject (invalidRequest (extractId obj)) := by
  unfold validateShape formed
  rcases get obj "method" with _ | m <;> rcases get obj "result" with _ | r <;>
    rcases get obj "error" with _ | e
  · rfl
  · rfl
  · rfl
  · rfl
  · dsimp only
    cases idPresentAndValid <;> simp
  · rfl
  · rfl
  · rfl

variable {fields gs : List (String × Json)}

/-- A message has a method, a result or an error, and only one of them. -/
theorem IsMessage.kinds (h : IsMessage fields) :
    ("method" ∈ keys fields ∧ "result" ∉ keys fields ∧ "error" ∉ keys fields) ∨
      ("method" ∉ keys fields ∧ "result" ∈ keys fields ∧ "error" ∉ keys fields) ∨
      ("method" ∉ keys fields ∧ "result" ∉ keys fields ∧ "error" ∈ keys fields) := by
  have hcalled (hcall : IsCall fields) : "method" ∈ keys fields := by
    obtain ⟨name, hname⟩ := hcall.method
    exact mem_keys.mpr ⟨_, hname⟩
  cases h with
  | request hid hcall => exact .inl ⟨hcalled hcall, hcall.result, hcall.error⟩
  | notification hid hcall => exact .inl ⟨hcalled hcall, hcall.result, hcall.error⟩
  | result hid hresult hmethod herror => exact .inr (.inl ⟨hmethod, hresult, herror⟩)
  | error hid v herror hv hmethod hresult =>
      exact .inr (.inr ⟨hmethod, hresult, mem_keys.mpr ⟨v, herror⟩⟩)

theorem isMessage_of_method {v : Json} (honce : (keys fields).count "method" ≤ 1)
    (hmethod : ("method", v) ∈ fields) (hresult : "result" ∉ keys fields)
    (herror : "error" ∉ keys fields) :
    IsMessage fields ↔
      v.asStr.isSome = true ∧ ∀ w, ("params", w) ∈ fields → IsParams w := by
  have hcalled (hcall : IsCall fields) :
      v.asStr.isSome = true ∧ ∀ w, ("params", w) ∈ fields → IsParams w := by
    obtain ⟨name, hname⟩ := hcall.method
    rw [eq_of_count_le_one honce hmethod hname]
    exact ⟨rfl, hcall.params⟩
  constructor
  · intro hmessage
    cases hmessage with
    | request hid hcall => exact hcalled hcall
    | notification hid hcall => exact hcalled hcall
    | result _ hresult' _ _ => exact absurd hresult' hresult
    | error _ w hw _ _ _ => exact absurd (mem_keys.mpr ⟨w, hw⟩) herror
  · rintro ⟨hstring, hparams⟩
    have hcall : IsCall fields := by
      cases v with
      | string name => exact ⟨⟨name, hmethod⟩, hresult, herror, hparams⟩
      | _ => cases hstring
    by_cases hid : "id" ∈ keys fields
    · exact .request hid hcall
    · exact .notification hid hcall

theorem isMessage_of_result (hmethod : "method" ∉ keys fields)
    (hresult : "result" ∈ keys fields) (herror : "error" ∉ keys fields) :
    IsMessage fields ↔ "id" ∈ keys fields := by
  constructor
  · intro hmessage
    cases hmessage with
    | notification hid hcall => exact absurd hresult hcall.result
    | request hid _ | result hid _ _ _ | error hid _ _ _ _ _ => exact hid
  · intro hid
    exact .result hid hresult hmethod herror

theorem isMessage_of_error {v : Json} (honce : (keys fields).count "error" ≤ 1)
    (hmethod : "method" ∉ keys fields) (hresult : "result" ∉ keys fields)
    (herror : ("error", v) ∈ fields) :
    IsMessage fields ↔ "id" ∈ keys fields ∧ IsError v := by
  constructor
  · intro hmessage
    cases hmessage with
    | request hid hcall => exact absurd (mem_keys.mpr ⟨v, herror⟩) hcall.error
    | notification hid hcall => exact absurd (mem_keys.mpr ⟨v, herror⟩) hcall.error
    | result hid hresult' _ _ => exact absurd hresult' hresult
    | error hid w hw hformed _ _ =>
        rw [eq_of_count_le_one honce herror hw]
        exact ⟨hid, hformed⟩
  · rintro ⟨hid, hformed⟩
    exact .error hid v herror hformed hmethod hresult

include hfloat in
theorem formed_iff (hread : readFields readFloat fields = some gs)
    (hunrepeated : Unrepeated (levels fields)) {idPresentAndValid paramsOk : Bool}
    (hid : idPresentAndValid = true ↔ "id" ∈ keys fields)
    (hparams : paramsOk = true ↔ ∀ v, ("params", v) ∈ fields → IsParams v) :
    formed (OrderedMap.ofList gs).entries idPresentAndValid paramsOk = true ↔
      IsMessage fields := by
  have honce := hunrepeated.once
  have habsent (key : String) (hget : get (OrderedMap.ofList gs).entries key = none) :
      key ∉ keys fields := (get_eq_none_iff hread).mp hget
  have hpresent (key : String) {w : Json}
      (hget : get (OrderedMap.ofList gs).entries key = some w) : key ∈ keys fields :=
    mem_keys_of_get hread hget
  -- Without exactly one of the three there is no message.
  have hnone (hkinds : ¬(
      ("method" ∈ keys fields ∧ "result" ∉ keys fields ∧ "error" ∉ keys fields) ∨
      ("method" ∉ keys fields ∧ "result" ∈ keys fields ∧ "error" ∉ keys fields) ∨
      ("method" ∉ keys fields ∧ "result" ∉ keys fields ∧ "error" ∈ keys fields))) :
      false = true ↔ IsMessage fields :=
    iff_of_false Bool.false_ne_true fun hmessage => hkinds hmessage.kinds
  unfold formed
  rcases hmethod : get (OrderedMap.ofList gs).entries "method" with _ | m <;>
    rcases hresult : get (OrderedMap.ofList gs).entries "result" with _ | r <;>
    rcases herror : get (OrderedMap.ofList gs).entries "error" with _ | e
  · exact hnone (by simp [habsent _ hmethod, habsent _ hresult, habsent _ herror])
  · obtain ⟨v, hv, hvalue⟩ := (get_eq_some_iff hread (honce _)).mp herror
    have hinner (inner : List (String × Json)) (hobject : v = .object inner) :
        (keys inner).Nodup :=
      hunrepeated.error _ (mem_levels.mpr ⟨inner, hobject ▸ hv, rfl⟩)
    dsimp only
    rw [isMessage_of_error (honce _) (habsent _ hmethod) (habsent _ hresult) hv,
      Bool.and_eq_true, hid, isWellFormedError_iff hfloat hvalue hinner]
  · dsimp only
    rw [isMessage_of_result (habsent _ hmethod) (hpresent _ hresult) (habsent _ herror), hid]
  · exact hnone (by simp [habsent _ hmethod, hpresent _ hresult, hpresent _ herror])
  · obtain ⟨v, hv, hvalue⟩ := (get_eq_some_iff hread (honce _)).mp hmethod
    dsimp only
    rw [isMessage_of_method (honce _) hv (habsent _ hresult) (habsent _ herror),
      Bool.and_eq_true, hparams, Json.isString, asStr_readValue hvalue]
  · exact hnone (by simp [hpresent _ hmethod, habsent _ hresult, hpresent _ herror])
  · exact hnone (by simp [hpresent _ hmethod, hpresent _ hresult, habsent _ herror])
  · exact hnone (by simp [hpresent _ hmethod, hpresent _ hresult, hpresent _ herror])

include hfloat in
/-- The last `match` decides, once the version and the id are taken. -/
theorem verdict_validateShape (hread : readFields readFloat fields = some gs)
    (hunrepeated : Unrepeated (levels fields)) {idPresentAndValid paramsOk : Bool}
    (hid : idPresentAndValid = true ↔ "id" ∈ keys fields)
    (hparams : paramsOk = true ↔ ∀ v, ("params", v) ∈ fields → IsParams v)
    (hjsonrpc : ("jsonrpc", .string "2.0") ∈ fields)
    (hids : ∀ v, ("id", v) ∈ fields → IsId v) :
    (Grammar fields ∧
      validateShape (OrderedMap.ofList gs).entries idPresentAndValid paramsOk = .forward) ∨
    (¬Grammar fields ∧
      validateShape (OrderedMap.ofList gs).entries idPresentAndValid paramsOk =
        .reject (invalidRequest (extractId (OrderedMap.ofList gs).entries))) := by
  have hformed := formed_iff hfloat hread hunrepeated hid hparams
  rw [validateShape_eq]
  split
  · rename_i hmessage
    exact .inl ⟨⟨hjsonrpc, hunrepeated, hids, hformed.mp hmessage⟩, rfl⟩
  · rename_i hmessage
    refine .inr ⟨?_, rfl⟩
    intro hgrammar
    exact hmessage (hformed.mpr hgrammar.message)

/-- The two checks of `params`, of the text and of the value. -/
theorem paramsOk_iff (hread : readFields readFloat fields = some gs)
    (honce : (keys fields).count "params" ≤ 1) :
    (!(topAndErrorDupCheck (.map (levels fields))).paramsMeta &&
      (get (OrderedMap.ofList gs).entries "params").all isValidParams) = true ↔
      ∀ v, ("params", v) ∈ fields → IsParams v := by
  rw [Bool.and_eq_true, Bool.not_eq_true', paramsMeta_eq_false_iff]
  constructor
  · rintro ⟨hmeta, hvalid⟩ v hv
    obtain ⟨w, hget⟩ := Option.ne_none_iff_exists'.mp fun hnone =>
      (get_eq_none_iff hread).mp hnone (mem_keys.mpr ⟨v, hv⟩)
    obtain ⟨u, hu, hw⟩ := (get_eq_some_iff hread honce).mp hget
    obtain rfl := eq_of_count_le_one honce hu hv
    rw [hget, Option.all_some] at hvalid
    refine (isValidParams_iff hw ?_).mp hvalid
    intro inner hobject
    exact hmeta _ (mem_levels.mpr ⟨inner, hobject ▸ hv, rfl⟩)
  · intro hparams
    have hmeta (inner : List (String × Json)) (hinner : ("params", .object inner) ∈ fields) :
        (keys inner).count "_meta" ≤ 1 := by
      cases hparams _ hinner with
      | object _ once _ => exact once
    refine ⟨fun names hnames => ?_, ?_⟩
    · obtain ⟨inner, hinner, rfl⟩ := mem_levels.mp hnames
      exact hmeta inner hinner
    · rw [Option.all_eq_true]
      intro w hget
      obtain ⟨u, hu, hw⟩ := (get_eq_some_iff hread honce).mp hget
      refine (isValidParams_iff hw ?_).mpr (hparams u hu)
      intro inner hobject
      exact hmeta inner (hobject ▸ hu)

theorem version_iff (hread : readFields readFloat fields = some gs)
    (honce : (keys fields).count "jsonrpc" ≤ 1) :
    (get (OrderedMap.ofList gs).entries "jsonrpc").bind Json.asStr = some "2.0" ↔
      ("jsonrpc", .string "2.0") ∈ fields := by
  rw [Option.bind_eq_some_iff]
  constructor
  · rintro ⟨w, hget, hw⟩
    obtain ⟨v, hv, hvalue⟩ := (get_eq_some_iff hread honce).mp hget
    rw [asStr_readValue hvalue] at hw
    cases v with
    | string s =>
        cases hw
        exact hv
    | _ => cases hw
  · intro hv
    exact ⟨_, (get_eq_some_iff hread honce).mpr ⟨_, hv, rfl⟩, rfl⟩

/-- Null is no id. -/
theorem not_echo_null (v : Json) : ¬(Json.null = v ∧ v ≠ .null) := by
  rintro ⟨rfl, hnull⟩
  exact hnull rfl

theorem IsId.ne_null {v : Json} (h : IsId v) : v ≠ .null := by
  rintro rfl
  cases h with
  | int _ n hn => cases hn

include hfloat in
/-- The id that is echoed. -/
theorem extractId_iff (hread : readFields readFloat fields = some gs)
    (honce : (keys fields).count "id" ≤ 1) {v : Json} :
    (extractId (OrderedMap.ofList gs).entries = v ∧ v ≠ .null) ↔
      ("id", v) ∈ fields ∧ IsId v := by
  unfold extractId
  rcases hget : get (OrderedMap.ofList gs).entries "id" with _ | w
  · refine iff_of_false (not_echo_null v) ?_
    rintro ⟨hv, -⟩
    exact (get_eq_none_iff hread).mp hget (mem_keys.mpr ⟨v, hv⟩)
  · obtain ⟨u, hu, hw⟩ := (get_eq_some_iff hread honce).mp hget
    dsimp only
    by_cases hid : IsId u
    · rw [if_pos ((isForwardableId_readValue hfloat hw).mpr hid)]
      rw [readValue_of_isId hid] at hw
      obtain rfl := Option.some.inj hw
      constructor
      · rintro ⟨rfl, -⟩
        exact ⟨hu, hid⟩
      · rintro ⟨hv, hid'⟩
        exact ⟨eq_of_count_le_one honce hu hv, hid'.ne_null⟩
    · rw [if_neg fun hforward => hid ((isForwardableId_readValue hfloat hw).mp hforward)]
      refine iff_of_false (not_echo_null v) ?_
      rintro ⟨hv, hid'⟩
      exact hid (eq_of_count_le_one honce hv hu ▸ hid')

end

/-! ## The verdict -/

section

variable {codec : Codec} {document : String → Option Json}
  {readFloat : String → Option String} {line : String}

theorem Codec.Reads.not_blank (h : codec.Reads document readFloat) {v : Json}
    (hdocument : document line = some v) : isBlank line = false := by
  by_contra hblank
  rw [h.blank line (by simpa using hblank)] at hdocument
  cases hdocument

theorem Codec.Reads.scan (h : codec.Reads document readFloat) {v : Json}
    (hdocument : document line = some v) :
    scanDuplicateKeys codec line = topAndErrorDupCheck (shapeOf v) := by
  rw [scanDuplicateKeys, h.streamed line v hdocument]

/-- A repeated key is found first, whatever the line is. -/
theorem validate_of_repeated (hblank : isBlank line = false)
    (hscan : (scanDuplicateKeys codec line).envelope = true) :
    validate codec line = .reject (invalidRequest .null) := by
  rw [validate, hblank, if_neg Bool.false_ne_true]
  dsimp only
  rw [hscan, if_pos rfl]

theorem validate_of_other (h : codec.Reads document readFloat) {v : Json}
    (hdocument : document line = some v) (hother : ∀ fields, v ≠ .object fields) :
    validate codec line = .reject (invalidRequest .null) := by
  obtain ⟨w, hw, hfrom⟩ := h.read line v hdocument
  have hshape : shapeOf v = .other := by
    cases v with
    | object fields => exact absurd rfl (hother fields)
    | _ => rfl
  have hscan : (scanDuplicateKeys codec line).envelope = false := by
    rw [h.scan hdocument, hshape]
    rfl
  rw [validate, h.not_blank hdocument]
  dsimp only
  rw [hscan, hfrom, if_neg Bool.false_ne_true, if_neg Bool.false_ne_true]
  dsimp only
  rw [asObject_readValue_of_ne hw hother]

theorem validate_object (h : codec.Reads document readFloat) {fields : List (String × Json)}
    (hdocument : document line = some (.object fields))
    (hunrepeated : Unrepeated (levels fields)) :
    ∃ gs, readFields readFloat fields = some gs ∧
      ((Grammar fields ∧ validate codec line = .forward) ∨
        (¬Grammar fields ∧ validate codec line =
          .reject (invalidRequest (extractId (OrderedMap.ofList gs).entries)))) := by
  obtain ⟨w, hw, hfrom⟩ := h.read line _ hdocument
  obtain ⟨gs, hgs, hobject⟩ := asObject_readValue_object hw
  have honce := hunrepeated.once
  have hscan : (scanDuplicateKeys codec line).envelope = false := by
    rw [h.scan hdocument]
    exact (envelope_eq_false_iff _).mpr hunrepeated
  have hparams := paramsOk_iff hgs (honce _)
  refine ⟨gs, hgs, ?_⟩
  rw [validate, h.not_blank hdocument, if_neg Bool.false_ne_true]
  dsimp only
  rw [hscan, hfrom, if_neg Bool.false_ne_true]
  dsimp only
  rw [hobject, h.scan hdocument]
  dsimp only [shapeOf]
  generalize (!(topAndErrorDupCheck (.map (levels fields))).paramsMeta &&
      (get (OrderedMap.ofList gs).entries "params").all isValidParams) = paramsOk at hparams ⊢
  have hversion := version_iff hgs (honce _)
  by_cases hjsonrpc : (get (OrderedMap.ofList gs).entries "jsonrpc").bind Json.asStr = some "2.0"
  · rw [if_neg (not_not.mpr hjsonrpc)]
    have hjsonrpc := hversion.mp hjsonrpc
    rcases hget : get (OrderedMap.ofList gs).entries "id" with _ | w'
    · have hid := (get_eq_none_iff hgs).mp hget
      refine verdict_validateShape h.float hgs hunrepeated
        (iff_of_false Bool.false_ne_true hid) hparams hjsonrpc ?_
      intro v hv
      exact absurd (mem_keys.mpr ⟨v, hv⟩) hid
    · obtain ⟨u, hu, hw'⟩ := (get_eq_some_iff hgs (honce _)).mp hget
      have hforwardable := isForwardableId_readValue h.float hw'
      dsimp only
      split
      · rename_i hforward
        refine verdict_validateShape h.float hgs hunrepeated
          (iff_of_true rfl (mem_keys.mpr ⟨u, hu⟩)) hparams hjsonrpc ?_
        intro v hv
        rw [eq_of_count_le_one (honce _) hv hu]
        exact hforwardable.mp hforward
      · rename_i hforward
        refine .inr ⟨fun hgrammar => hforward (hforwardable.mpr (hgrammar.id u hu)), ?_⟩
        rw [extractId, hget]
        dsimp only
        rw [if_neg hforward]
  · rw [if_pos hjsonrpc]
    exact .inr ⟨fun hgrammar => hjsonrpc (hversion.mpr hgrammar.version), rfl⟩

theorem rejects_iff {env : ErrorEnvelope} (h : validate codec line = .reject env) (code : Int) :
    Rejects codec line code ↔ env.code = code := by
  constructor
  · rintro ⟨env', henv', hcode⟩
    rw [h] at henv'
    cases henv'
    exact hcode
  · intro hcode
    exact ⟨env, h, hcode⟩

theorem not_rejects (h : ∀ env, validate codec line ≠ .reject env) (code : Int) :
    ¬Rejects codec line code := by
  rintro ⟨env, henv, -⟩
  exact h env henv

theorem not_object_of_none {P : List (String × Json) → Prop} :
    ¬∃ fields, (none : Option Json) = some (.object fields) ∧ P fields := by
  rintro ⟨fields, hfields, -⟩
  cases hfields

theorem not_tree_of_none {P : Json → Prop} : ¬∃ v, (none : Option Json) = some v ∧ P v := by
  rintro ⟨v, hv, -⟩
  cases hv

theorem validates_of_blank (h : codec.Reads document readFloat) (hblank : isBlank line = true) :
    Validates codec document line := by
  have hvalidate : validate codec line = .skip := by
    rw [validate, if_pos hblank]
  have hdocument := h.blank line hblank
  have hnever (env : ErrorEnvelope) : validate codec line ≠ .reject env := by
    rw [hvalidate]
    intro henv
    cases henv
  refine ⟨iff_of_true hvalidate ((isBlank_iff line).mp hblank), ?_, ?_, ?_, ?_⟩
  · exact iff_of_false (not_rejects hnever _) (by simp [hblank])
  · rw [hvalidate, hdocument]
    refine iff_of_false ?_ not_object_of_none
    intro hforward
    cases hforward
  · rw [hdocument]
    exact iff_of_false (not_rejects hnever _) not_tree_of_none
  · intro env v henv
    exact absurd henv (hnever env)

theorem not_skips (hblank : isBlank line = false) (hvalidate : validate codec line ≠ .skip) :
    validate codec line = .skip ↔ ∀ c ∈ line.toList, isWhitespace c = true := by
  rw [← isBlank_iff, hblank]
  exact iff_of_false hvalidate Bool.false_ne_true

/-- A rejection with -32600 is right for a JSON text outside the grammar. -/
theorem validates_of_invalid (h : codec.Reads document readFloat) {v id : Json}
    (hdocument : document line = some v)
    (hvalidate : validate codec line = .reject (invalidRequest id))
    (hgrammar : ∀ fields, v = .object fields → ¬Grammar fields)
    (hecho : ∀ u, (id = u ∧ u ≠ .null) ↔ ∃ fields, v = .object fields ∧
      Unrepeated (levels fields) ∧ ("id", u) ∈ fields ∧ IsId u) :
    Validates codec document line := by
  have hne : validate codec line ≠ .skip := by
    rw [hvalidate]
    intro hskip
    cases hskip
  refine ⟨not_skips (h.not_blank hdocument) hne, ?_, ?_, ?_, ?_⟩
  · rw [rejects_iff hvalidate, hdocument]
    refine iff_of_false ?_ ?_
    · dsimp only [invalidRequest]
      decide
    · rintro ⟨-, ⟨⟩⟩
  · rw [hvalidate, hdocument]
    refine iff_of_false ?_ ?_
    · rintro ⟨⟩
    · rintro ⟨fields, hfields, hgood⟩
      exact hgrammar fields (Option.some.inj hfields) hgood
  · rw [rejects_iff hvalidate]
    exact iff_of_true rfl ⟨v, hdocument, hgrammar⟩
  · intro env u henv
    rw [hvalidate] at henv
    cases henv
    simp only [hdocument, Option.some.injEq]
    exact hecho u

/-- A rejection with -32700 is right for a line without a document. -/
theorem validates_of_parseError (hblank : isBlank line = false) (hdocument : document line = none)
    (hvalidate : validate codec line = .reject parseError) :
    Validates codec document line := by
  have hne : validate codec line ≠ .skip := by
    rw [hvalidate]
    intro hskip
    cases hskip
  refine ⟨not_skips hblank hne, ?_, ?_, ?_, ?_⟩
  · rw [rejects_iff hvalidate]
    exact iff_of_true rfl ⟨hblank, hdocument⟩
  · rw [hvalidate, hdocument]
    refine iff_of_false ?_ not_object_of_none
    intro hforward
    cases hforward
  · rw [rejects_iff hvalidate, hdocument]
    exact iff_of_false (by decide) not_tree_of_none
  · intro env v henv
    rw [hvalidate] at henv
    cases henv
    rw [hdocument]
    exact iff_of_false (not_echo_null v) not_object_of_none

theorem validates_of_forward (h : codec.Reads document readFloat) {fields : List (String × Json)}
    (hdocument : document line = some (.object fields))
    (hvalidate : validate codec line = .forward) (hgrammar : Grammar fields) :
    Validates codec document line := by
  have hnever (env : ErrorEnvelope) : validate codec line ≠ .reject env := by
    rw [hvalidate]
    intro henv
    cases henv
  have hne : validate codec line ≠ .skip := by
    rw [hvalidate]
    intro hskip
    cases hskip
  refine ⟨not_skips (h.not_blank hdocument) hne, ?_, ?_, ?_, ?_⟩
  · rw [hdocument]
    refine iff_of_false (not_rejects hnever _) ?_
    rintro ⟨-, ⟨⟩⟩
  · exact iff_of_true hvalidate ⟨fields, hdocument, hgrammar⟩
  · rw [hdocument]
    refine iff_of_false (not_rejects hnever _) ?_
    rintro ⟨v, hv, hnot⟩
    exact hnot fields (Option.some.inj hv).symm hgrammar
  · intro env v henv
    exact absurd henv (hnever env)

theorem validates_of_document (h : codec.Reads document readFloat) {v : Json}
    (hdocument : document line = some v) : Validates codec document line := by
  by_cases hobject : ∃ fields, v = .object fields
  · obtain ⟨fields, rfl⟩ := hobject
    by_cases hunrepeated : Unrepeated (levels fields)
    · obtain ⟨gs, hgs, ⟨hgrammar, hvalidate⟩ | ⟨hgrammar, hvalidate⟩⟩ :=
        validate_object h hdocument hunrepeated
      · exact validates_of_forward h hdocument hvalidate hgrammar
      · refine validates_of_invalid h hdocument hvalidate ?_ fun u => ?_
        · rintro _ ⟨⟩
          exact hgrammar
        · rw [extractId_iff h.float hgs (hunrepeated.once "id")]
          constructor
          · rintro ⟨hu, hid⟩
            exact ⟨fields, rfl, hunrepeated, hu, hid⟩
          · rintro ⟨_, ⟨⟩, -, hu, hid⟩
            exact ⟨hu, hid⟩
    · have hscan : (scanDuplicateKeys codec line).envelope = true := by
        rw [h.scan hdocument, ← Bool.not_eq_false]
        exact fun hfound => hunrepeated ((envelope_eq_false_iff _).mp hfound)
      refine validates_of_invalid h hdocument
        (validate_of_repeated (h.not_blank hdocument) hscan) ?_ fun u => ?_
      · rintro _ ⟨⟩ hgrammar
        exact hunrepeated hgrammar.unrepeated
      · refine iff_of_false (not_echo_null u) ?_
        rintro ⟨_, ⟨⟩, hnot, -⟩
        exact hunrepeated hnot
  · have hother (fields : List (String × Json)) (hv : v = .object fields) : False :=
      hobject ⟨fields, hv⟩
    refine validates_of_invalid h hdocument (validate_of_other h hdocument hother)
      (fun fields hv => (hother fields hv).elim) fun u => ?_
    refine iff_of_false (not_echo_null u) ?_
    rintro ⟨fields, hv, -⟩
    exact hother fields hv

/-- What the scan finds where there is no document. -/
theorem scan_envelope_iff (codec : Codec) (line : String) :
    (scanDuplicateKeys codec line).envelope = true ↔
      ∃ entries, codec.deserialize line = some (.map entries) ∧ ¬Unrepeated entries := by
  rw [scanDuplicateKeys]
  rcases hshape : codec.deserialize line with _ | shape
  · refine iff_of_false Bool.false_ne_true ?_
    rintro ⟨entries, hentries, -⟩
    cases hentries
  · cases shape with
    | other =>
        refine iff_of_false Bool.false_ne_true ?_
        rintro ⟨entries, hentries, -⟩
        cases hentries
    | map entries =>
        dsimp only
        rw [← Bool.not_eq_false, envelope_eq_false_iff]
        constructor
        · intro hnot
          exact ⟨entries, rfl, hnot⟩
        · rintro ⟨_, ⟨⟩, hnot⟩
          exact hnot

/-- A misread line is rejected with -32600. -/
theorem validate_of_misread (hmisread : Misread codec document line) :
    validate codec line = .reject (invalidRequest .null) := by
  obtain ⟨hblank, -, hrepeated⟩ := hmisread
  exact validate_of_repeated hblank ((scan_envelope_iff codec line).mpr hrepeated)

theorem not_validates_of_misread (hmisread : Misread codec document line) :
    ¬Validates codec document line := by
  intro hvalidates
  have hrejects := hvalidates.parseError.mpr ⟨hmisread.1, hmisread.2.1⟩
  rw [rejects_iff (validate_of_misread hmisread)] at hrejects
  cases hrejects

end

/-- **The validator and its grammar.**  The verdict on a line is the right one unless the
    streaming reader finds a repeated key in a line that is no JSON text. -/
theorem validates_iff_not_misread (codec : Codec) (document : String → Option Json)
    (readFloat : String → Option String) (h : codec.Reads document readFloat) (line : String) :
    Validates codec document line ↔ ¬Misread codec document line := by
  constructor
  · intro hvalidates hmisread
    exact not_validates_of_misread hmisread hvalidates
  · intro hmisread
    rcases hdocument : document line with _ | v
    · by_cases hblank : isBlank line = true
      · exact validates_of_blank h hblank
      · have hblank : isBlank line = false := by simpa using hblank
        have hscan : (scanDuplicateKeys codec line).envelope = false := by
          rw [← Bool.not_eq_true, scan_envelope_iff]
          exact fun hrepeated => hmisread ⟨hblank, hdocument, hrepeated⟩
        refine validates_of_parseError hblank hdocument ?_
        rw [validate, hblank, if_neg Bool.false_ne_true]
        dsimp only
        rw [hscan, h.refused line hdocument, if_neg Bool.false_ne_true]
    · exact validates_of_document h hdocument

/-! ## Two lines -/

/-- A request, and an object with a repeated key that something follows. -/
def requestText : String := "\x7b\"jsonrpc\":\"2.0\",\"method\":\"tools/list\",\"id\":1\x7d"

def repeatedText : String := "\x7b\"a\":1,\"a\":2\x7d x"

def requestTree : Json :=
  .object [("jsonrpc", .string "2.0"), ("method", .string "tools/list"), ("id", .number "1")]

def grammarDocument (line : String) : Option Json :=
  if line = requestText then some requestTree else none

/-- The codec on these two lines, in which no float stands. -/
def grammarCodec : Codec where
  fromStr line := (grammarDocument line).bind (readValue fun _ => none)
  deserialize line :=
    if line = repeatedText then some (.map [("a", .other), ("a", .other)])
    else (grammarDocument line).map shapeOf
  toText := sampleCodec.toText
  parseMessage line :=
    if line = requestText then
      some (.request ⟨.number "1", .other,
        ["io.modelcontextprotocol/protocolVersion",
         "io.modelcontextprotocol/clientCapabilities"]⟩)
    else none

theorem grammarDocument_eq_some {line : String} {v : Json} (h : grammarDocument line = some v) :
    line = requestText ∧ v = requestTree := by
  unfold grammarDocument at h
  split at h
  · rename_i hline
    cases h
    exact ⟨hline, rfl⟩
  · cases h

theorem grammarCodec_reads : grammarCodec.Reads grammarDocument fun _ => none where
  blank line hblank := by
    rw [← Option.not_isSome_iff_eq_none, Option.isSome_iff_exists]
    rintro ⟨v, hv⟩
    obtain ⟨rfl, -⟩ := grammarDocument_eq_some hv
    have hrequest : isBlank requestText = false := by decide +kernel
    rw [hrequest] at hblank
    cases hblank
  refused line hline := by
    change (grammarDocument line).bind _ = none
    rw [hline]
    rfl
  read line v hv := by
    obtain ⟨rfl, rfl⟩ := grammarDocument_eq_some hv
    have hread : (readValue (fun _ => none) requestTree).isSome = true := by decide +kernel
    obtain ⟨w, hw⟩ := Option.isSome_iff_exists.mp hread
    refine ⟨w, hw, ?_⟩
    change (grammarDocument requestText).bind (readValue fun _ => none) = some w
    rw [hv, Option.bind_some, hw]
  streamed line v hv := by
    obtain ⟨rfl, rfl⟩ := grammarDocument_eq_some hv
    have hother : requestText ≠ repeatedText := by decide +kernel
    unfold grammarCodec
    dsimp only
    rw [if_neg hother, hv, Option.map_some]
  float _ _ h := by cases h

/-- The request gets the verdict of the grammar. -/
theorem validates_request : Validates grammarCodec grammarDocument requestText := by
  apply (validates_iff_not_misread grammarCodec grammarDocument _ grammarCodec_reads _).mpr
  rintro ⟨-, hdocument, -⟩
  cases hdocument.symm.trans (if_pos rfl : grammarDocument requestText = some requestTree)

/-- The other line is no JSON text and is called an invalid request. -/
theorem not_validates_repeated :
    grammarCodec.Reads grammarDocument (fun _ => none) ∧
      ¬∀ line, Validates grammarCodec grammarDocument line := by
  refine ⟨grammarCodec_reads, ?_⟩
  intro hall
  have hblank : isBlank repeatedText = false := by decide +kernel
  have hdocument : grammarDocument repeatedText = none := if_neg (by decide +kernel)
  have hscanned : grammarCodec.deserialize repeatedText =
      some (.map [("a", .other), ("a", .other)]) := by
    unfold grammarCodec
    dsimp only
    rw [if_pos rfl]
  refine not_validates_of_misread ⟨hblank, hdocument, _, hscanned, ?_⟩ (hall repeatedText)
  intro hunrepeated
  exact absurd hunrepeated.top (by decide)

/-! ## Runs of the bridge -/

/-- A misread line is not forwarded either. -/
theorem grammar_of_forward {codec : Codec} {document : String → Option Json}
    {readFloat : String → Option String} (h : codec.Reads document readFloat) {line : String}
    (hforward : validate codec line = .forward) :
    ∃ fields, document line = some (.object fields) ∧ Grammar fields := by
  rcases hdocument : document line with _ | v
  · exfalso
    rw [validate, h.refused line hdocument] at hforward
    split at hforward
    · cases hforward
    · dsimp only at hforward
      split at hforward
      · cases hforward
      · cases hforward
  · have hvalidates := validates_of_document h hdocument
    rw [← hdocument]
    exact hvalidates.forward.mp hforward

/-- What has been forwarded are lines of the grammar. -/
def Bridge.Grammatical (document : String → Option Json) (s : Bridge) : Prop :=
  ∀ buf ∈ s.forwarded, ∃ line fields, lineForValidation buf = some line ∧
    document line = some (.object fields) ∧ Grammar fields

section

variable {codec : Codec} {document : String → Option Json} {readFloat : String → Option String}

theorem grammatical_deliver (h : codec.Reads document readFloat) {buf : Bytes} {line : String}
    (hline : lineForValidation buf = some line) {s : Bridge} (hs : s.Grammatical document)
    (modern : Bool) : (deliver codec buf line modern s).Grammatical document := by
  intro buf' hbuf'
  rw [forwarded_deliver, List.mem_append] at hbuf'
  rcases hbuf' with hbefore | hnow
  · exact hs buf' hbefore
  · split at hnow
    · rename_i hforwards
      obtain rfl := List.mem_singleton.mp hnow
      have hforward : validate codec line = .forward := by
        unfold forwards at hforwards
        split at hforwards
        · assumption
        · cases hforwards
        · cases hforwards
      obtain ⟨fields, hdocument, hgrammar⟩ := grammar_of_forward h hforward
      exact ⟨line, fields, hline, hdocument, hgrammar⟩
    · cases hnow

theorem grammatical_step (h : codec.Reads document readFloat) (s : Bridge) (buf : Bytes)
    (t : Bridge) (hs : s.Grammatical document) (hstep : step codec s buf = some t) :
    t.Grammatical document := by
  by_cases hreturned : s.returned = true
  · simp only [step, hreturned, if_true, Option.some.injEq] at hstep
    rwa [← hstep]
  · have hreturned : s.returned = false := by simpa using hreturned
    cases handled_of_step hreturned hstep with
    | garbled hline => exact hs
    | intercepted line req hline hparse hkind => exact hs
    | plain line hline hplain => exact grammatical_deliver h hline hs false
    | first line req hline hparse hinit =>
        have hs' : Bridge.Grammatical document
            { s with initialized := req.kind == .initializeRequest } := hs
        exact grammatical_deliver h hline hs' req.modernFirst

/-- **Only lines of the grammar are forwarded.** -/
theorem grammatical_of_run (h : codec.Reads document readFloat) {lines : List Bytes}
    {s : Bridge} (hrun : run (step codec) .init lines = some s) : s.Grammatical document := by
  have hinit : Bridge.init.Grammatical document := by
    intro buf hbuf
    cases hbuf
  exact invariant_of_run (grammatical_step h) hinit hrun

end

end RustyImap.InboundBridge
