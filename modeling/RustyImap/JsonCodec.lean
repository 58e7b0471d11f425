import RustyImap.ReadLists
import RustyImap.ToolRefinement

/-!
# Codecs between records and JSON

What a derived serializer and deserializer of records do, as combinators.  A
`Codec` writes a value and reads one; `Fields` does the same for the fields of
a record.  Beside the two directions each carries

* `Says v w`, that `w` says what `v` says: fields may be added, none is lost
  and none changes its meaning;
* `Plain v`, that reading `v` and writing it again loses nothing;
* `Faithful x`, that writing `x` and reading it again does not change it.

A codec is lawful when the last two are exact.  The combinators preserve this:
`field` for one field with its default and its rule for leaving it out, `and`
for the fields of one record after those of another, `iso` to give the tuple
its proper type, and `struct` for a record as a value.
-/

namespace RustyImap.JsonCodec

/-! ## Trees -/

mutual

/-- How many arrays and objects stand around the innermost value. -/
def depth : Json → Nat
  | .null | .bool _ | .number _ | .string _ => 0
  | .array items => depthItems items + 1
  | .object fields => depthFields fields + 1

def depthItems : List Json → Nat
  | [] => 0
  | v :: rest => max (depth v) (depthItems rest)

def depthFields : List (String × Json) → Nat
  | [] => 0
  | (_, v) :: rest => max (depth v) (depthFields rest)

end

theorem depthItems_le_iff {items : List Json} {n : Nat} :
    depthItems items ≤ n ↔ ∀ v ∈ items, depth v ≤ n := by
  induction items with
  | nil => simp [depthItems]
  | cons v rest ih => rw [depthItems, max_le_iff, ih, List.forall_mem_cons]

theorem depthFields_le_iff {fields : List (String × Json)} {n : Nat} :
    depthFields fields ≤ n ↔ ∀ p ∈ fields, depth p.2 ≤ n := by
  induction fields with
  | nil => simp [depthFields]
  | cons p rest ih =>
      obtain ⟨key, v⟩ := p
      rw [depthFields, max_le_iff, ih, List.forall_mem_cons]

/-- The values under a key, in order. -/
def occurrences (fields : List (String × Json)) (key : String) : List Json :=
  (fields.filter fun p => p.1 == key).map Prod.snd

theorem mem_occurrences {fields : List (String × Json)} {key : String} {v : Json} :
    v ∈ occurrences fields key ↔ (key, v) ∈ fields := by
  unfold occurrences
  rw [List.mem_map]
  constructor
  · rintro ⟨⟨k, w⟩, hmem, rfl⟩
    obtain ⟨hin, hkey⟩ := List.mem_filter.mp hmem
    have hkey : k = key := by simpa using hkey
    exact hkey ▸ hin
  · intro hin
    exact ⟨(key, v), List.mem_filter.mpr ⟨hin, by simp⟩, rfl⟩

theorem occurrences_append (fields rest : List (String × Json)) (key : String) :
    occurrences (fields ++ rest) key = occurrences fields key ++ occurrences rest key := by
  simp [occurrences]

theorem occurrences_eq_nil {fields : List (String × Json)} {key : String}
    (h : key ∉ fields.map Prod.fst) : occurrences fields key = [] := by
  refine List.eq_nil_iff_forall_not_mem.mpr fun v hv => h ?_
  exact List.mem_map.mpr ⟨(key, v), mem_occurrences.mp hv, rfl⟩

/-! ## Values -/

structure Codec (α : Type) where
  encode : α → Json
  decode : Json → Option α
  Says : Json → Json → Prop
  Plain : Json → Prop
  Faithful : α → Prop

namespace Codec

variable {α : Type}

structure Lawful (c : Codec α) : Prop where
  decode_encode : ∀ x, c.decode (c.encode x) = some x ↔ c.Faithful x
  says_iff : ∀ v x, c.decode v = some x → (c.Says v (c.encode x) ↔ c.Plain v)

/-- A value without parts, of which nothing is lost: two texts say the same
    when they are read as the same. -/
def leaf (encode : α → Json) (decode : Json → Option α) : Codec α where
  encode := encode
  decode := decode
  Says v w := ∃ x, decode v = some x ∧ decode w = some x
  Plain _ := True
  Faithful _ := True

theorem lawful_leaf {encode : α → Json} {decode : Json → Option α}
    (h : ∀ x, decode (encode x) = some x) : (leaf encode decode).Lawful where
  decode_encode x := iff_of_true (h x) trivial
  says_iff _ x hx := iff_of_true ⟨x, hx, h x⟩ trivial

/-- `Option<T>`: nothing is `null`. -/
def option (c : Codec α) : Codec (Option α) where
  encode
    | none => .null
    | some x => c.encode x
  decode
    | .null => some none
    | v => (c.decode v).map some
  Says v w := (v = .null ∧ w = .null) ∨ (v ≠ .null ∧ c.Says v w)
  Plain v := v = .null ∨ c.Plain v
  Faithful x := ∀ y, x = some y → c.Faithful y

theorem option_decode_of_ne_null {c : Codec α} {v : Json} (h : v ≠ .null) :
    c.option.decode v = (c.decode v).map some := by
  cases v <;> first | rfl | exact absurd rfl h

theorem lawful_option {c : Codec α} (hc : c.Lawful) (hnull : ∀ x, c.encode x ≠ .null) :
    c.option.Lawful where
  decode_encode x := by
    cases x with
    | none => exact iff_of_true rfl fun y hy => by cases hy
    | some x =>
        have hread : c.option.decode (c.option.encode (some x)) =
            (c.decode (c.encode x)).map some := option_decode_of_ne_null (hnull x)
        rw [hread, Option.map_eq_some_iff]
        constructor
        · rintro ⟨y, hy, hyx⟩ z hz
          obtain rfl := Option.some.inj hyx
          obtain rfl := Option.some.inj hz
          exact (hc.decode_encode _).mp hy
        · exact fun h => ⟨x, (hc.decode_encode x).mpr (h x rfl), rfl⟩
  says_iff v x hx := by
    by_cases hv : v = .null
    · subst hv
      obtain rfl : none = x := Option.some.inj hx
      exact iff_of_true (.inl ⟨rfl, rfl⟩) (.inl rfl)
    · rw [option_decode_of_ne_null hv] at hx
      obtain ⟨y, hy, rfl⟩ := Option.map_eq_some_iff.mp hx
      have hiff := hc.says_iff v y hy
      constructor
      · rintro (⟨hnull', -⟩ | ⟨-, hsays⟩)
        · exact absurd hnull' hv
        · exact .inr (hiff.mp hsays)
      · rintro (hnull' | hplain)
        · exact absurd hnull' hv
        · exact .inr ⟨hv, hiff.mpr hplain⟩

/-- `Vec<T>`. -/
def list (c : Codec α) : Codec (List α) where
  encode xs := .array (xs.map c.encode)
  decode
    | .array items => items.mapM c.decode
    | _ => none
  Says
    | .array items, .array items' => List.Forall₂ c.Says items items'
    | _, _ => False
  Plain
    | .array items => ∀ v ∈ items, c.Plain v
    | _ => True
  Faithful xs := ∀ x ∈ xs, c.Faithful x

theorem lawful_list {c : Codec α} (hc : c.Lawful) : c.list.Lawful where
  decode_encode xs := by
    have hread : c.list.decode (c.list.encode xs) = (xs.map c.encode).mapM c.decode := rfl
    rw [hread, ReadLists.mapM_map_eq_some_iff]
    exact forall₂_congr fun x _ => hc.decode_encode x
  says_iff v xs hxs := by
    cases v with
    | array items =>
        have hitems : List.Forall₂ (fun v x => c.decode v = some x) items xs :=
          ReadLists.mapM_eq_some_iff.mp hxs
        have hgoal : List.Forall₂ c.Says items (xs.map c.encode) ↔ ∀ v ∈ items, c.Plain v := by
          clear hxs
          induction hitems with
          | nil => simp
          | cons hy _ ih =>
              rw [List.map_cons, List.forall₂_cons, ih, hc.says_iff _ _ hy, List.forall_mem_cons]
        exact hgoal
    | _ => cases hxs

/-- No value is written deeper than `n`. -/
def Within (c : Codec α) (n : Nat) : Prop := ∀ x, depth (c.encode x) ≤ n

theorem Within.mono {c : Codec α} {m n : Nat} (h : c.Within m) (hle : m ≤ n) : c.Within n :=
  fun x => Nat.le_trans (h x) hle

theorem within_option {c : Codec α} {n : Nat} (h : c.Within n) : c.option.Within n := by
  intro x
  cases x with
  | none => exact Nat.zero_le n
  | some x => exact h x

theorem within_list {c : Codec α} {n : Nat} (h : c.Within n) : c.list.Within (n + 1) := by
  intro xs
  have hitems : depthItems (xs.map c.encode) ≤ n := by
    rw [depthItems_le_iff]
    rintro v hv
    obtain ⟨x, -, rfl⟩ := List.mem_map.mp hv
    exact h x
  exact Nat.succ_le_succ hitems

end Codec

/-! ## Fields -/

structure Fields (α : Type) where
  keys : List String
  encode : α → List (String × Json)
  decode : (String → List Json) → Option α
  Says : String → Json → Json → Prop
  Plain : (String → List Json) → Prop
  Faithful : α → Prop

namespace Fields

variable {α β : Type}

structure Lawful (f : Fields α) : Prop where
  mem_keys : ∀ x, ∀ p ∈ f.encode x, p.1 ∈ f.keys
  decode_congr : ∀ i i', (∀ key ∈ f.keys, i key = i' key) → f.decode i = f.decode i'
  decode_encode : ∀ x, f.decode (occurrences (f.encode x)) = some x ↔ f.Faithful x
  says_iff : ∀ i x, f.decode i = some x →
    ((∀ key ∈ f.keys, ∀ v ∈ i key, ∃ w, (key, w) ∈ f.encode x ∧ f.Says key v w) ↔ f.Plain i)

/-- One field: `missing` is what is read where there is none, `skip` tells when
    it is not written.  A key that occurs twice is an error. -/
def field (key : String) (c : Codec α) (missing : Option α) (skip : α → Bool) : Fields α where
  keys := [key]
  encode x := if skip x then [] else [(key, c.encode x)]
  decode i :=
    match i key with
    | [] => missing
    | [v] => c.decode v
    | _ => none
  Says _ := c.Says
  Plain i := ∀ v ∈ i key, c.Plain v ∧ ∀ x, c.decode v = some x → skip x = false
  Faithful x := skip x = true ∨ c.Faithful x

section

variable {key : String} {c : Codec α} {missing : Option α} {skip : α → Bool}

theorem field_decode_eq_some {i : String → List Json} {x : α}
    (h : (field key c missing skip).decode i = some x) :
    (i key = [] ∧ missing = some x) ∨ ∃ v, i key = [v] ∧ c.decode v = some x := by
  have hread : (match i key with
    | [] => missing
    | [v] => c.decode v
    | _ => none) = some x := h
  cases hi : i key with
  | nil =>
      rw [hi] at hread
      exact .inl ⟨rfl, hread⟩
  | cons v rest =>
      rw [hi] at hread
      cases rest with
      | nil => exact .inr ⟨v, rfl, hread⟩
      | cons v' rest => cases hread

theorem mem_field_encode {x : α} {p : String × Json} :
    p ∈ (field key c missing skip).encode x ↔ skip x = false ∧ p = (key, c.encode x) := by
  cases hs : skip x <;> simp [field, hs]

/-- What the field says of the value that it was read from. -/
theorem field_says_iff (hc : c.Lawful) {v : Json} {x : α} (hv : c.decode v = some x) :
    (∃ w, (key, w) ∈ (field key c missing skip).encode x ∧ c.Says v w) ↔
      c.Plain v ∧ ∀ y, c.decode v = some y → skip y = false := by
  have hiff := hc.says_iff v x hv
  constructor
  · rintro ⟨w, hw, hsays⟩
    obtain ⟨hskip, hentry⟩ := mem_field_encode.mp hw
    obtain rfl := (Prod.mk.inj hentry).2
    refine ⟨hiff.mp hsays, fun y hy => ?_⟩
    rw [hv] at hy
    exact Option.some.inj hy ▸ hskip
  · rintro ⟨hplain, hnever⟩
    exact ⟨c.encode x, mem_field_encode.mpr ⟨hnever x hv, rfl⟩, hiff.mpr hplain⟩

theorem lawful_field (hc : c.Lawful) (hskip : ∀ x, skip x = true → missing = some x) :
    (field key c missing skip).Lawful where
  mem_keys x p hp := by
    rw [(mem_field_encode.mp hp).2]
    exact List.mem_cons_self
  decode_congr i i' h := by
    have hkey : i key = i' key := h key List.mem_cons_self
    unfold field
    simp only [hkey]
  decode_encode x := by
    cases hs : skip x with
    | true =>
        refine iff_of_true ?_ (.inl hs)
        simp [field, hs, occurrences, hskip x hs]
    | false =>
        have hiff := hc.decode_encode x
        simpa [field, hs, occurrences] using hiff
  says_iff i x hx := by
    have hvalues : (∀ v ∈ i key, ∃ w, (key, w) ∈ (field key c missing skip).encode x ∧
          c.Says v w) ↔
        ∀ v ∈ i key, c.Plain v ∧ ∀ y, c.decode v = some y → skip y = false := by
      rcases field_decode_eq_some hx with ⟨hi, -⟩ | ⟨v, hi, hv⟩
      · simp [hi]
      · rw [hi]
        simpa using field_says_iff hc hv
    constructor
    · intro h
      exact hvalues.mp (h key List.mem_cons_self)
    · intro h k hk
      obtain rfl := List.mem_singleton.mp hk
      exact hvalues.mpr h

end

/-- The fields of `f` and after them those of `g`. -/
def and (f : Fields α) (g : Fields β) : Fields (α × β) where
  keys := f.keys ++ g.keys
  encode x := f.encode x.1 ++ g.encode x.2
  decode i := do return (← f.decode i, ← g.decode i)
  Says key := if key ∈ f.keys then f.Says key else g.Says key
  Plain i := f.Plain i ∧ g.Plain i
  Faithful x := f.Faithful x.1 ∧ g.Faithful x.2

theorem and_decode_eq_some {f : Fields α} {g : Fields β} {i : String → List Json} {x : α × β} :
    (f.and g).decode i = some x ↔ f.decode i = some x.1 ∧ g.decode i = some x.2 := by
  obtain ⟨a, b⟩ := x
  simp only [and, bind, pure, Option.bind_eq_some_iff, Option.some.injEq, Prod.mk.injEq]
  constructor
  · rintro ⟨a', ha, b', hb, rfl, rfl⟩
    exact ⟨ha, hb⟩
  · rintro ⟨ha, hb⟩
    exact ⟨a, ha, b, hb, rfl, rfl⟩

theorem Lawful.occurrences_eq_nil {f : Fields α} (hf : f.Lawful) {key : String}
    (h : key ∉ f.keys) (x : α) : occurrences (f.encode x) key = [] := by
  refine JsonCodec.occurrences_eq_nil fun hin => h ?_
  obtain ⟨p, hp, rfl⟩ := List.mem_map.mp hin
  exact hf.mem_keys x p hp

theorem lawful_and {f : Fields α} {g : Fields β} (hf : f.Lawful) (hg : g.Lawful)
    (hdisjoint : ∀ key ∈ f.keys, key ∉ g.keys) : (f.and g).Lawful where
  mem_keys x p hp := by
    rcases List.mem_append.mp hp with hp | hp
    · exact List.mem_append_left _ (hf.mem_keys x.1 p hp)
    · exact List.mem_append_right _ (hg.mem_keys x.2 p hp)
  decode_congr i i' h := by
    have hfst := hf.decode_congr i i' fun key hkey => h key (List.mem_append_left _ hkey)
    have hsnd := hg.decode_congr i i' fun key hkey => h key (List.mem_append_right _ hkey)
    unfold and
    simp only [hfst, hsnd]
  decode_encode x := by
    have hfst : f.decode (occurrences ((f.and g).encode x)) =
        f.decode (occurrences (f.encode x.1)) := by
      refine hf.decode_congr _ _ fun key hkey => ?_
      have hother := hg.occurrences_eq_nil (hdisjoint key hkey) x.2
      exact (occurrences_append _ _ key).trans (by rw [hother, List.append_nil])
    have hsnd : g.decode (occurrences ((f.and g).encode x)) =
        g.decode (occurrences (g.encode x.2)) := by
      refine hg.decode_congr _ _ fun key hkey => ?_
      have hother := hf.occurrences_eq_nil (fun hin => hdisjoint key hin hkey) x.1
      exact (occurrences_append _ _ key).trans (by rw [hother, List.nil_append])
    rw [and_decode_eq_some, hfst, hsnd, hf.decode_encode, hg.decode_encode]
    rfl
  says_iff i x hx := by
    obtain ⟨hfst, hsnd⟩ := and_decode_eq_some.mp hx
    have hiff : (f.Plain i ∧ g.Plain i) ↔ (f.and g).Plain i := Iff.rfl
    rw [← hiff, ← hf.says_iff i x.1 hfst, ← hg.says_iff i x.2 hsnd]
    constructor
    · intro h
      refine ⟨fun key hkey v hv => ?_, fun key hkey v hv => ?_⟩
      · obtain ⟨w, hw, hsays⟩ := h key (List.mem_append_left _ hkey) v hv
        have hsays : f.Says key v w := by simpa only [and, if_pos hkey] using hsays
        rcases List.mem_append.mp hw with hw | hw
        · exact ⟨w, hw, hsays⟩
        · exact absurd (hg.mem_keys x.2 _ hw) (hdisjoint key hkey)
      · have hout : key ∉ f.keys := fun hin => hdisjoint key hin hkey
        obtain ⟨w, hw, hsays⟩ := h key (List.mem_append_right _ hkey) v hv
        have hsays : g.Says key v w := by simpa only [and, if_neg hout] using hsays
        rcases List.mem_append.mp hw with hw | hw
        · exact absurd (hf.mem_keys x.1 _ hw) hout
        · exact ⟨w, hw, hsays⟩
    · rintro ⟨hleft, hright⟩ key hkey v hv
      rcases List.mem_append.mp hkey with hkey | hkey
      · obtain ⟨w, hw, hsays⟩ := hleft key hkey v hv
        exact ⟨w, List.mem_append_left _ hw, by simpa only [and, if_pos hkey] using hsays⟩
      · have hout : key ∉ f.keys := fun hin => hdisjoint key hin hkey
        obtain ⟨w, hw, hsays⟩ := hright key hkey v hv
        exact ⟨w, List.mem_append_right _ hw, by simpa only [and, if_neg hout] using hsays⟩

/-- The same fields for a type of its own. -/
def iso (f : Fields α) (build : α → β) (parts : β → α) : Fields β where
  keys := f.keys
  encode y := f.encode (parts y)
  decode i := (f.decode i).map build
  Says := f.Says
  Plain := f.Plain
  Faithful y := f.Faithful (parts y)

theorem lawful_iso {f : Fields α} (hf : f.Lawful) {build : α → β} {parts : β → α}
    (hparts : ∀ x, parts (build x) = x) (hbuild : ∀ y, build (parts y) = y) :
    (f.iso build parts).Lawful where
  mem_keys y := hf.mem_keys (parts y)
  decode_congr i i' h := congrArg (Option.map build) (hf.decode_congr i i' h)
  decode_encode y := by
    have hread : (f.iso build parts).decode (occurrences ((f.iso build parts).encode y)) =
        (f.decode (occurrences (f.encode (parts y)))).map build := rfl
    have hfaithful : (f.iso build parts).Faithful y ↔ f.Faithful (parts y) := Iff.rfl
    rw [hread, hfaithful, ← hf.decode_encode, Option.map_eq_some_iff]
    constructor
    · rintro ⟨x, hx, rfl⟩
      rw [hparts] at hx ⊢
      exact hx
    · exact fun h => ⟨parts y, h, hbuild y⟩
  says_iff i y hy := by
    obtain ⟨x, hx, rfl⟩ := Option.map_eq_some_iff.mp hy
    have hiff := hf.says_iff i x hx
    simpa only [iso, hparts] using hiff

/-- A record as a value.  It may also be read from an array of its fields in
    order, with the last of them missing. -/
def struct (f : Fields α) : Codec α where
  encode x := .object (f.encode x)
  decode
    | .object fields => f.decode (occurrences fields)
    | .array items =>
        if items.length ≤ f.keys.length then f.decode (occurrences (f.keys.zip items)) else none
    | _ => none
  Says
    | .object fields, .object fields' =>
        ∀ p ∈ fields, ∃ w, (p.1, w) ∈ fields' ∧ f.Says p.1 p.2 w
    | .array items, .object fields' =>
        ∀ p ∈ f.keys.zip items, ∃ w, (p.1, w) ∈ fields' ∧ f.Says p.1 p.2 w
    | _, _ => False
  Plain
    | .object fields => (∀ p ∈ fields, p.1 ∈ f.keys) ∧ f.Plain (occurrences fields)
    | .array items => f.Plain (occurrences (f.keys.zip items))
    | _ => True
  Faithful := f.Faithful

/-- What a record says of a list of fields. -/
theorem Lawful.says_fields_iff {f : Fields α} (hf : f.Lawful) {fields : List (String × Json)}
    {x : α} (hx : f.decode (occurrences fields) = some x) :
    (∀ p ∈ fields, ∃ w, (p.1, w) ∈ f.encode x ∧ f.Says p.1 p.2 w) ↔
      (∀ p ∈ fields, p.1 ∈ f.keys) ∧ f.Plain (occurrences fields) := by
  rw [← hf.says_iff _ x hx]
  constructor
  · intro h
    refine ⟨fun p hp => ?_, fun key _ v hv => h (key, v) (mem_occurrences.mp hv)⟩
    obtain ⟨w, hw, -⟩ := h p hp
    exact hf.mem_keys x (p.1, w) hw
  · rintro ⟨hknown, hsays⟩ p hp
    exact hsays p.1 (hknown p hp) p.2 (mem_occurrences.mpr hp)

theorem lawful_struct {f : Fields α} (hf : f.Lawful) : f.struct.Lawful where
  decode_encode := hf.decode_encode
  says_iff v x hx := by
    cases v with
    | object fields => exact hf.says_fields_iff hx
    | array items =>
        have hx : (if items.length ≤ f.keys.length then
            f.decode (occurrences (f.keys.zip items)) else none) = some x := hx
        split at hx
        · have hknown : ∀ p ∈ f.keys.zip items, p.1 ∈ f.keys :=
            fun p hp => (List.of_mem_zip hp).1
          have hiff := hf.says_fields_iff hx
          exact hiff.trans ⟨And.right, fun h => ⟨hknown, h⟩⟩
        · cases hx
    | _ => cases hx

/-! ## How deep a record is -/

/-- No field of a value is written deeper than `n`. -/
def WithinAt (f : Fields α) (x : α) (n : Nat) : Prop := ∀ p ∈ f.encode x, depth p.2 ≤ n

theorem withinAt_field {key : String} {c : Codec α} {missing : Option α} {skip : α → Bool}
    {x : α} {n : Nat} (h : depth (c.encode x) ≤ n) : (field key c missing skip).WithinAt x n := by
  intro p hp
  exact (mem_field_encode.mp hp).2 ▸ h

theorem withinAt_and {f : Fields α} {g : Fields β} {x : α × β} {n : Nat}
    (hf : f.WithinAt x.1 n) (hg : g.WithinAt x.2 n) : (f.and g).WithinAt x n := by
  intro p hp
  rcases List.mem_append.mp hp with hp | hp
  · exact hf p hp
  · exact hg p hp

theorem withinAt_iso {f : Fields α} {build : α → β} {parts : β → α} {y : β} {n : Nat}
    (h : f.WithinAt (parts y) n) : (f.iso build parts).WithinAt y n := h

theorem within_struct {f : Fields α} {n : Nat} (h : ∀ x, f.WithinAt x n) :
    f.struct.Within (n + 1) := by
  intro x
  have hfields : depthFields (f.encode x) ≤ n := depthFields_le_iff.mpr (h x)
  exact Nat.succ_le_succ hfields

end Fields

end RustyImap.JsonCodec
