import RustyImap.AuditRecord
import RustyImap.JsonCodec

/-!
# Reading and writing `serde_json::Value`

A line of the log holds number literals, an object may repeat a key and keeps
the order of the text.  A value in memory holds numbers and ordered maps.  An
integer that fits `u64` or `i64` is kept; any other literal becomes an `f64`,
and what is printed for that is a parameter (`readFloat`).

`SaysValue` compares number literals by the number that they denote.
-/

namespace RustyImap

/-- Induction on a tree: its items and its fields are smaller. -/
theorem Json.induct {P : Json → Prop} (null : P .null) (bool : ∀ b, P (.bool b))
    (number : ∀ literal, P (.number literal)) (string : ∀ s, P (.string s))
    (array : ∀ items, (∀ v ∈ items, P v) → P (.array items))
    (object : ∀ fields, (∀ p ∈ fields, P p.2) → P (.object fields)) : ∀ v, P v
  | .null => null
  | .bool b => bool b
  | .number literal => number literal
  | .string s => string s
  | .array items =>
      array items fun v _ => Json.induct null bool number string array object v
  | .object fields =>
      object fields fun p _ => Json.induct null bool number string array object p.2
termination_by v => sizeOf v
decreasing_by
  · have := List.sizeOf_lt_of_mem ‹v ∈ items›
    simp only [Json.array.sizeOf_spec]
    omega
  · obtain ⟨key, v⟩ := p
    have := List.sizeOf_lt_of_mem ‹(key, v) ∈ fields›
    simp only [Json.object.sizeOf_spec, Prod.mk.sizeOf_spec] at this ⊢
    omega

namespace Record

open JsonCodec

/-! ## Number literals -/

def isInteger (literal : String) : Bool :=
  match literal.toList with
  | '-' :: digits => (digitsToNat digits).any fun n => 0 < n && n ≤ 2 ^ 63
  | digits => (digitsToNat digits).any fun n => n < 2 ^ 64

/-- The text that is printed for the number that a literal is read as; a literal
    beyond the range of `f64` is an error. -/
def readNumber (readFloat : String → Option String) (literal : String) : Option String :=
  if isInteger literal then some literal else readFloat literal

/-- The digits of an exponent, with their sign. -/
def exponentValue (text : List Char) : Option Int :=
  match text with
  | [] => some 0
  | '-' :: digits => (digitsToNat digits).map fun n => -(n : Int)
  | '+' :: digits => (digitsToNat digits).map fun n => (n : Int)
  | digits => (digitsToNat digits).map fun n => (n : Int)

/-- The number that a literal denotes. -/
def numberValue (literal : String) : Option Rat :=
  let negative := literal.toList.head? == some '-'
  let digits := if negative then literal.toList.drop 1 else literal.toList
  let mantissa := digits.takeWhile fun c => c != 'e' && c != 'E'
  let exponent := (digits.drop mantissa.length).drop 1
  let whole := mantissa.takeWhile fun c => c != '.'
  let fraction := (mantissa.drop whole.length).drop 1
  do
    let n ← digitsToNat (whole ++ fraction)
    let e ← exponentValue exponent
    return (if negative then -1 else 1) * (n : Rat) * (10 : Rat) ^ (e - fraction.length)

def SameNumber (literal literal' : String) : Prop := numberValue literal = numberValue literal'

section

variable (readFloat : String → Option String)

/-! ## Reading -/

mutual

def readValue : Json → Option Json
  | .null => some .null
  | .bool b => some (.bool b)
  | .number literal => (readNumber readFloat literal).map .number
  | .string s => some (.string s)
  | .array items => (readItems items).map .array
  | .object fields => (readFields fields).map fun read => .object (OrderedMap.ofList read).entries

def readItems : List Json → Option (List Json)
  | [] => some []
  | v :: rest => do return (← readValue v) :: (← readItems rest)

def readFields : List (String × Json) → Option (List (String × Json))
  | [] => some []
  | (key, v) :: rest => do return (key, ← readValue v) :: (← readFields rest)

end

variable {readFloat}

theorem readItems_eq_some {items ws : List Json} :
    readItems readFloat items = some ws ↔
      List.Forall₂ (fun v w => readValue readFloat v = some w) items ws := by
  induction items generalizing ws with
  | nil => simp [readItems, eq_comm]
  | cons v rest ih =>
      simp only [readItems, bind, pure, Option.bind_eq_some_iff, Option.some.injEq]
      constructor
      · rintro ⟨w, hw, ws', hws, rfl⟩
        exact .cons hw (ih.mp hws)
      · intro h
        cases h with
        | cons hw hws => exact ⟨_, hw, _, ih.mpr hws, rfl⟩

theorem readFields_eq_some {fields gs : List (String × Json)} :
    readFields readFloat fields = some gs ↔
      List.Forall₂ (fun p q => p.1 = q.1 ∧ readValue readFloat p.2 = some q.2) fields gs := by
  induction fields generalizing gs with
  | nil => simp [readFields, eq_comm]
  | cons p rest ih =>
      obtain ⟨key, v⟩ := p
      simp only [readFields, bind, pure, Option.bind_eq_some_iff, Option.some.injEq]
      constructor
      · rintro ⟨w, hw, gs', hgs, rfl⟩
        exact .cons ⟨rfl, hw⟩ (ih.mp hgs)
      · intro h
        cases h with
        | @cons _ q _ gs' hq hgs =>
            obtain ⟨hkey, hw⟩ := hq
            have hkey : key = q.1 := hkey
            exact ⟨q.2, hw, gs', ih.mpr hgs, by rw [hkey]⟩

/-- What is read is a value. -/
theorem canonical_readValue : ∀ {v w : Json}, readValue readFloat v = some w → Canonical w := by
  intro v
  induction v using Json.induct with
  | null => exact fun h => Option.some.inj h ▸ .null
  | bool b => exact fun h => Option.some.inj h ▸ .bool b
  | string s => exact fun h => Option.some.inj h ▸ .string s
  | number literal =>
      intro w h
      obtain ⟨literal', -, rfl⟩ := Option.map_eq_some_iff.mp h
      exact .number literal'
  | array items ih =>
      intro w h
      obtain ⟨ws, hws, rfl⟩ := Option.map_eq_some_iff.mp h
      refine .array fun w hw => ?_
      obtain ⟨v, hv, hread⟩ := ReadLists.exists_of_mem_right (readItems_eq_some.mp hws) hw
      exact ih v hv hread
  | object fields ih =>
      intro w h
      obtain ⟨gs, hgs, rfl⟩ := Option.map_eq_some_iff.mp h
      refine .object (OrderedMap.sorted _) fun q hq => ?_
      obtain ⟨p, hp, -, hread⟩ := ReadLists.exists_of_mem_right (readFields_eq_some.mp hgs)
        (OrderedMap.mem_of_mem_ofList hq)
      exact ih p hp hread

/-! ## What a value says -/

variable (readFloat)

mutual

/-- The field of an object is the last one of its name. -/
def SaysValue : Json → Json → Prop
  | .null, w => w = .null
  | .bool b, w => w = .bool b
  | .number literal, w => ∃ literal', w = .number literal' ∧ SameNumber literal literal'
  | .string s, w => w = .string s
  | .array items, w => ∃ ws, w = .array ws ∧ SaysItems items ws
  | .object fields, w => ∃ gs, w = .object gs ∧ SaysFields fields gs

def SaysItems : List Json → List Json → Prop
  | [], ws => ws = []
  | v :: rest, ws => ∃ w tail, ws = w :: tail ∧ SaysValue v w ∧ SaysItems rest tail

def SaysFields : List (String × Json) → List (String × Json) → Prop
  | [], _ => True
  | (key, v) :: rest, gs =>
      (key ∈ rest.map Prod.fst ∨ ∃ w, (key, w) ∈ gs ∧ SaysValue v w) ∧ SaysFields rest gs

end

mutual

/-- Every number of a value is read as the number that it denotes. -/
def PlainValue : Json → Prop
  | .null | .bool _ | .string _ => True
  | .number literal => ∀ literal', readNumber readFloat literal = some literal' →
      SameNumber literal literal'
  | .array items => PlainItems items
  | .object fields => PlainFields fields

def PlainItems : List Json → Prop
  | [] => True
  | v :: rest => PlainValue v ∧ PlainItems rest

def PlainFields : List (String × Json) → Prop
  | [] => True
  | (key, v) :: rest => (key ∈ rest.map Prod.fst ∨ PlainValue v) ∧ PlainFields rest

end

variable {readFloat}

theorem map_fst_eq_of_forall₂ {fields gs : List (String × Json)}
    (h : List.Forall₂ (fun p q => p.1 = q.1 ∧ readValue readFloat p.2 = some q.2) fields gs) :
    fields.map Prod.fst = gs.map Prod.fst := by
  induction h with
  | nil => rfl
  | cons hpq _ ih => rw [List.map_cons, List.map_cons, hpq.1, ih]

theorem saysItems_iff {items ws : List Json}
    (ih : ∀ v ∈ items, ∀ w, readValue readFloat v = some w →
      (SaysValue v w ↔ PlainValue readFloat v))
    (h : List.Forall₂ (fun v w => readValue readFloat v = some w) items ws) :
    SaysItems items ws ↔ PlainItems readFloat items := by
  induction h with
  | nil => simp [SaysItems, PlainItems]
  | @cons v w rest tail hv _ ihrest =>
      obtain ⟨hfirst, hlater⟩ := List.forall_mem_cons.mp ih
      have hrest := ihrest hlater
      have hvalue := hfirst w hv
      simp only [SaysItems, PlainItems, List.cons.injEq]
      constructor
      · rintro ⟨w', tail', ⟨rfl, rfl⟩, hsays, htail⟩
        exact ⟨hvalue.mp hsays, hrest.mp htail⟩
      · rintro ⟨hplain, htail⟩
        exact ⟨w, tail, ⟨rfl, rfl⟩, hvalue.mpr hplain, hrest.mpr htail⟩

/-- The last of equal keys counts. -/
theorem lookup_reverse_cons (key : String) (w : Json) (tail : List (String × Json)) (k : String) :
    ((key, w) :: tail).reverse.lookup k =
      (tail.reverse.lookup k).or (if k = key then some w else none) := by
  rw [List.reverse_cons, List.lookup_append]
  congr 1
  by_cases hk : k = key <;> simp [hk]

/-- `written` is a map in which the fields up to here have been put, and those
    of the rest hold as they are last. -/
theorem saysFields_iff {fields gs : List (String × Json)} (written : OrderedMap String Json)
    (ih : ∀ p ∈ fields, ∀ w, readValue readFloat p.2 = some w →
      (SaysValue p.2 w ↔ PlainValue readFloat p.2))
    (h : List.Forall₂ (fun p q => p.1 = q.1 ∧ readValue readFloat p.2 = some q.2) fields gs)
    (hwritten : ∀ key, key ∈ gs.map Prod.fst → written.get key = gs.reverse.lookup key) :
    SaysFields fields written.entries ↔ PlainFields readFloat fields := by
  induction h with
  | nil => simp [SaysFields, PlainFields]
  | @cons p q rest tail hpq hall ihrest =>
      obtain ⟨key, v⟩ := p
      obtain ⟨key', w⟩ := q
      obtain ⟨rfl, hv⟩ : key = key' ∧ readValue readFloat v = some w := hpq
      obtain ⟨hfirst, hlater⟩ := List.forall_mem_cons.mp ih
      have hkeys : rest.map Prod.fst = tail.map Prod.fst := map_fst_eq_of_forall₂ hall
      have hrest : SaysFields rest written.entries ↔ PlainFields readFloat rest := by
        refine ihrest hlater fun k hk => ?_
        rw [hwritten k (List.mem_cons_of_mem _ hk), lookup_reverse_cons]
        have hsome : (tail.reverse.lookup k).isSome = true := by
          rw [List.lookup_isSome_iff]
          obtain ⟨e, he, rfl⟩ := List.mem_map.mp hk
          exact ⟨e, List.mem_reverse.mpr he, by simp⟩
        obtain ⟨value, hvalue⟩ := Option.isSome_iff_exists.mp hsome
        rw [hvalue]
        rfl
      have hhead : (key ∈ rest.map Prod.fst ∨
            ∃ w, (key, w) ∈ written.entries ∧ SaysValue v w) ↔
          (key ∈ rest.map Prod.fst ∨ PlainValue readFloat v) := by
        by_cases hlast : key ∈ rest.map Prod.fst
        · exact iff_of_true (.inl hlast) (.inl hlast)
        · have hnone : tail.reverse.lookup key = none := by
            refine List.lookup_eq_none_iff.mpr fun e he => ?_
            have hne : key ≠ e.1 := fun heq => hlast (by
              rw [hkeys, heq]
              exact List.mem_map.mpr ⟨e, List.mem_reverse.mp he, rfl⟩)
            simpa using hne
          have hget : written.get key = some w := by
            rw [hwritten key List.mem_cons_self, lookup_reverse_cons, hnone, if_pos rfl,
              Option.none_or]
          have hvalue := hfirst w hv
          have hentry : (∃ w, (key, w) ∈ written.entries ∧ SaysValue v w) ↔ SaysValue v w := by
            constructor
            · rintro ⟨w', hw', hsays⟩
              rw [OrderedMap.get_eq_some_iff.mpr hw'] at hget
              exact Option.some.inj hget ▸ hsays
            · exact fun hsays => ⟨w, OrderedMap.get_eq_some_iff.mp hget, hsays⟩
          rw [hentry, hvalue]
      simp only [SaysFields, PlainFields, hhead, hrest]

/-- Nothing is lost exactly when the numbers are read as what they denote. -/
theorem saysValue_iff : ∀ {v w : Json}, readValue readFloat v = some w →
    (SaysValue v w ↔ PlainValue readFloat v) := by
  intro v
  induction v using Json.induct with
  | null => exact fun h => iff_of_true (Option.some.inj h).symm trivial
  | bool b => exact fun h => iff_of_true (Option.some.inj h).symm trivial
  | string s => exact fun h => iff_of_true (Option.some.inj h).symm trivial
  | number literal =>
      intro w h
      obtain ⟨literal', hread, rfl⟩ := Option.map_eq_some_iff.mp h
      constructor
      · rintro ⟨l, hl, hsame⟩ l' hl'
        rw [hread] at hl'
        obtain rfl := Option.some.inj hl'
        obtain rfl := Json.number.inj hl
        exact hsame
      · exact fun hplain => ⟨literal', rfl, hplain literal' hread⟩
  | array items ih =>
      intro w h
      obtain ⟨ws, hws, rfl⟩ := Option.map_eq_some_iff.mp h
      have hitems := saysItems_iff (fun v hv w => ih v hv) (readItems_eq_some.mp hws)
      simp only [SaysValue, PlainValue, ← hitems]
      exact ⟨fun ⟨ws', heq, hsays⟩ => Json.array.inj heq ▸ hsays, fun hsays => ⟨ws, rfl, hsays⟩⟩
  | object fields ih =>
      intro w h
      obtain ⟨gs, hgs, rfl⟩ := Option.map_eq_some_iff.mp h
      have hfields := saysFields_iff (OrderedMap.ofList gs) (fun p hp w => ih p hp)
        (readFields_eq_some.mp hgs) fun key _ => OrderedMap.get_ofList gs key
      simp only [SaysValue, PlainValue, ← hfields]
      exact ⟨fun ⟨gs', heq, hsays⟩ => Json.object.inj heq ▸ hsays, fun hsays => ⟨_, rfl, hsays⟩⟩

/-! ## Reading what was written -/

variable (readFloat)

mutual

/-- Every number in memory is read back from its own text. -/
def KeepsNumbers : Json → Prop
  | .null | .bool _ | .string _ => True
  | .number literal => readNumber readFloat literal = some literal
  | .array items => KeepsItems items
  | .object fields => KeepsFields fields

def KeepsItems : List Json → Prop
  | [] => True
  | v :: rest => KeepsNumbers v ∧ KeepsItems rest

def KeepsFields : List (String × Json) → Prop
  | [] => True
  | (_, v) :: rest => KeepsNumbers v ∧ KeepsFields rest

end

variable {readFloat}

theorem readItems_self_iff {items : List Json}
    (ih : ∀ v ∈ items, readValue readFloat v = some v ↔ KeepsNumbers readFloat v) :
    readItems readFloat items = some items ↔ KeepsItems readFloat items := by
  induction items with
  | nil => exact iff_of_true rfl trivial
  | cons v rest ihrest =>
      obtain ⟨hfirst, hlater⟩ := List.forall_mem_cons.mp ih
      rw [readItems_eq_some, List.forall₂_cons, ← readItems_eq_some, ihrest hlater, hfirst]
      rfl

theorem readFields_self_iff {fields : List (String × Json)}
    (ih : ∀ p ∈ fields, readValue readFloat p.2 = some p.2 ↔ KeepsNumbers readFloat p.2) :
    readFields readFloat fields = some fields ↔ KeepsFields readFloat fields := by
  induction fields with
  | nil => exact iff_of_true rfl trivial
  | cons p rest ihrest =>
      obtain ⟨key, v⟩ := p
      obtain ⟨hfirst, hlater⟩ := List.forall_mem_cons.mp ih
      rw [readFields_eq_some, List.forall₂_cons, ← readFields_eq_some, ihrest hlater, hfirst]
      exact ⟨fun h => ⟨h.1.2, h.2⟩, fun h => ⟨⟨rfl, h.1⟩, h.2⟩⟩

/-- Reading leaves the order of ordered fields alone. -/
theorem ofList_readFields {fields gs : List (String × Json)}
    (hsorted : fields.Pairwise fun p q => p.1 < q.1)
    (h : List.Forall₂ (fun p q => p.1 = q.1 ∧ readValue readFloat p.2 = some q.2) fields gs) :
    (OrderedMap.ofList gs).entries = gs := by
  have hkeys : gs.Pairwise fun p q => p.1 < q.1 := by
    have hmap : (fields.map Prod.fst).Pairwise (· < ·) := List.pairwise_map.mpr hsorted
    rw [map_fst_eq_of_forall₂ h] at hmap
    exact List.pairwise_map.mp hmap
  exact congrArg OrderedMap.entries (OrderedMap.ofList_entries ⟨gs, hkeys⟩)

theorem readValue_self_iff {v : Json} (h : Canonical v) :
    readValue readFloat v = some v ↔ KeepsNumbers readFloat v := by
  induction h with
  | null => exact iff_of_true rfl trivial
  | bool b => exact iff_of_true rfl trivial
  | string s => exact iff_of_true rfl trivial
  | number literal => simp [readValue, KeepsNumbers]
  | @array items _ ih =>
      rw [readValue, KeepsNumbers, ← readItems_self_iff ih]
      simp
  | @object fields hsorted _ ih =>
      rw [readValue, KeepsNumbers, ← readFields_self_iff ih, Option.map_eq_some_iff]
      constructor
      · rintro ⟨gs, hgs, heq⟩
        rw [ofList_readFields hsorted (readFields_eq_some.mp hgs)] at heq
        obtain rfl := Json.object.inj heq
        exact hgs
      · intro hself
        exact ⟨fields, hself, by rw [ofList_readFields hsorted (readFields_eq_some.mp hself)]⟩

/-! ## The codec -/

variable (readFloat)

def valueCodec : Codec Value where
  encode x := x.json
  decode v :=
    match h : readValue readFloat v with
    | some w => some ⟨w, canonical_readValue h⟩
    | none => none
  Says := SaysValue
  Plain := PlainValue readFloat
  Faithful x := KeepsNumbers readFloat x.json

theorem valueCodec_decode_eq_some {v : Json} {x : Value} :
    (valueCodec readFloat).decode v = some x ↔ readValue readFloat v = some x.json := by
  obtain ⟨json, hjson⟩ := x
  unfold valueCodec
  simp only
  split
  · rename_i w hw
    simp [hw]
  · rename_i hnone
    simp [hnone]

theorem lawful_valueCodec : (valueCodec readFloat).Lawful where
  decode_encode x := by
    rw [valueCodec_decode_eq_some]
    exact readValue_self_iff x.canonical
  says_iff v x hx := saysValue_iff ((valueCodec_decode_eq_some readFloat).mp hx)

end

end Record

end RustyImap
