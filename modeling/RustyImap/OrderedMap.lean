import Mathlib

/-!
# Maps as lists in the order of their keys

A map over linearly ordered keys is the list of its entries in strictly
ascending order of the keys, so that a map is determined by what it looks up
(`OrderedMap.ext_get`).  `insert` puts an entry in its place or replaces the
value there; `get_insert` and `get_empty` are all that a client needs to know
about a map that a loop has built.
-/

namespace RustyImap

structure OrderedMap (κ α : Type*) [LinearOrder κ] where
  entries : List (κ × α)
  sorted : entries.Pairwise fun p q => p.1 < q.1

namespace OrderedMap

variable {κ α : Type*} [LinearOrder κ]

def insertEntry (key : κ) (value : α) : List (κ × α) → List (κ × α)
  | [] => [(key, value)]
  | (k, v) :: rest =>
      if key < k then (key, value) :: (k, v) :: rest
      else if key = k then (key, value) :: rest
      else (k, v) :: insertEntry key value rest

theorem mem_insertEntry {key : κ} {value : α} {entries : List (κ × α)} {p : κ × α}
    (h : p ∈ insertEntry key value entries) : p = (key, value) ∨ p ∈ entries := by
  induction entries with
  | nil => exact .inl (List.mem_singleton.mp h)
  | cons entry rest ih =>
      obtain ⟨k, v⟩ := entry
      unfold insertEntry at h
      split at h
      · exact List.mem_cons.mp h
      · split at h
        · rcases List.mem_cons.mp h with h | h
          · exact .inl h
          · exact .inr (List.mem_cons_of_mem _ h)
        · rcases List.mem_cons.mp h with h | h
          · exact .inr (h ▸ List.mem_cons_self)
          · exact (ih h).imp_right (List.mem_cons_of_mem _)

theorem sorted_insertEntry (key : κ) (value : α) {entries : List (κ × α)}
    (h : entries.Pairwise fun p q => p.1 < q.1) :
    (insertEntry key value entries).Pairwise fun p q => p.1 < q.1 := by
  induction entries with
  | nil => exact List.pairwise_singleton _ _
  | cons entry rest ih =>
      obtain ⟨k, v⟩ := entry
      obtain ⟨hfirst, hrest⟩ := List.pairwise_cons.mp h
      unfold insertEntry
      split
      · rename_i hlt
        refine List.pairwise_cons.mpr ⟨fun p hp => ?_, h⟩
        rcases List.mem_cons.mp hp with rfl | hp
        · exact hlt
        · exact lt_trans hlt (hfirst p hp)
      · split
        · rename_i heq
          refine List.pairwise_cons.mpr ⟨fun p hp => ?_, hrest⟩
          exact heq ▸ hfirst p hp
        · rename_i hnlt hne
          refine List.pairwise_cons.mpr ⟨fun p hp => ?_, ih hrest⟩
          rcases mem_insertEntry hp with rfl | hp
          · exact lt_of_le_of_ne (not_lt.mp hnlt) (Ne.symm hne)
          · exact hfirst p hp

def empty : OrderedMap κ α := ⟨[], List.Pairwise.nil⟩

def insert (m : OrderedMap κ α) (key : κ) (value : α) : OrderedMap κ α :=
  ⟨insertEntry key value m.entries, sorted_insertEntry key value m.sorted⟩

def get (m : OrderedMap κ α) (key : κ) : Option α := m.entries.lookup key

@[simp] theorem get_empty (key : κ) : (empty : OrderedMap κ α).get key = none := rfl

theorem lookup_insertEntry (key : κ) (value : α) (entries : List (κ × α)) (key' : κ) :
    (insertEntry key value entries).lookup key' =
      if key' = key then some value else entries.lookup key' := by
  induction entries with
  | nil =>
      by_cases h : key' = key
      · simp [insertEntry, h]
      · simp [insertEntry, h, List.lookup_cons, beq_eq_false_iff_ne.mpr h]
  | cons entry rest ih =>
      obtain ⟨k, v⟩ := entry
      unfold insertEntry
      split
      · rw [List.lookup_cons]
        by_cases h : key' = key
        · simp [h]
        · simp [h, beq_eq_false_iff_ne.mpr h]
      · split
        · rename_i heq
          subst heq
          rw [List.lookup_cons, List.lookup_cons]
          by_cases h : key' = key
          · simp [h]
          · simp [h, beq_eq_false_iff_ne.mpr h]
        · rename_i hnlt hne
          rw [List.lookup_cons, List.lookup_cons, ih]
          by_cases hk : key' = k
          · subst hk
            simp [Ne.symm hne]
          · simp [beq_eq_false_iff_ne.mpr hk]

@[simp] theorem get_insert (m : OrderedMap κ α) (key : κ) (value : α) (key' : κ) :
    (m.insert key value).get key' = if key' = key then some value else m.get key' :=
  lookup_insertEntry key value m.entries key'

theorem mem_insert {m : OrderedMap κ α} {key : κ} {value : α} {p : κ × α}
    (h : p ∈ (m.insert key value).entries) : p = (key, value) ∨ p ∈ m.entries :=
  mem_insertEntry h

/-- In a sorted list the entry of a key is what is looked up. -/
theorem get_eq_some_iff {m : OrderedMap κ α} {key : κ} {value : α} :
    m.get key = some value ↔ (key, value) ∈ m.entries := by
  obtain ⟨entries, hsorted⟩ := m
  unfold get
  simp only
  induction entries with
  | nil => simp
  | cons entry rest ih =>
      obtain ⟨k, v⟩ := entry
      obtain ⟨hfirst, hrest⟩ := List.pairwise_cons.mp hsorted
      rw [List.lookup_cons, List.mem_cons]
      by_cases hk : key = k
      · subst hk
        have hout : (key, value) ∉ rest := fun hin => lt_irrefl key (hfirst _ hin)
        simp [hout, eq_comm]
      · simp only [beq_eq_false_iff_ne.mpr hk]
        rw [ih hrest]
        simp [hk]

theorem head_eq_of_mem_iff {p q : κ × α} {ps qs : List (κ × α)}
    (hps : (p :: ps).Pairwise fun p q => p.1 < q.1) (hqs : (q :: qs).Pairwise fun p q => p.1 < q.1)
    (h : ∀ e, e ∈ p :: ps ↔ e ∈ q :: qs) : p = q := by
  have hp : p ∈ q :: qs := (h p).mp List.mem_cons_self
  have hq : q ∈ p :: ps := (h q).mpr List.mem_cons_self
  rcases List.mem_cons.mp hp with heq | hp
  · exact heq
  · rcases List.mem_cons.mp hq with heq | hq
    · exact heq.symm
    · exact absurd ((List.pairwise_cons.mp hps).1 q hq)
        (lt_asymm ((List.pairwise_cons.mp hqs).1 p hp))

/-- Sorted lists with the same entries are the same. -/
theorem entries_eq_of_mem_iff {ps qs : List (κ × α)} (hps : ps.Pairwise fun p q => p.1 < q.1)
    (hqs : qs.Pairwise fun p q => p.1 < q.1) (h : ∀ e, e ∈ ps ↔ e ∈ qs) : ps = qs := by
  induction ps generalizing qs with
  | nil =>
      rcases qs with _ | ⟨q, qs⟩
      · rfl
      · exact absurd ((h q).mpr List.mem_cons_self) List.not_mem_nil
  | cons p ps ih =>
      rcases qs with _ | ⟨q, qs⟩
      · exact absurd ((h p).mp List.mem_cons_self) List.not_mem_nil
      · obtain rfl := head_eq_of_mem_iff hps hqs h
        obtain ⟨hps_first, hps_rest⟩ := List.pairwise_cons.mp hps
        obtain ⟨hqs_first, hqs_rest⟩ := List.pairwise_cons.mp hqs
        have htail : ∀ e, e ∈ ps ↔ e ∈ qs := by
          intro e
          have he := h e
          rw [List.mem_cons, List.mem_cons] at he
          constructor
          · intro hin
            rcases he.mp (.inr hin) with rfl | hin'
            · exact absurd (hps_first e hin) (lt_irrefl _)
            · exact hin'
          · intro hin
            rcases he.mpr (.inr hin) with rfl | hin'
            · exact absurd (hqs_first e hin) (lt_irrefl _)
            · exact hin'
        rw [ih hps_rest hqs_rest htail]

/-- A map is what it looks up. -/
theorem ext_get {m m' : OrderedMap κ α} (h : ∀ key, m.get key = m'.get key) : m = m' := by
  have hentries : m.entries = m'.entries := by
    refine entries_eq_of_mem_iff m.sorted m'.sorted fun e => ?_
    rw [← get_eq_some_iff (m := m), h e.1, get_eq_some_iff]
  cases m
  cases m'
  simpa using hentries

/-! ## Maps from lists -/

/-- The entries put in one after the other: the last one of a key stays. -/
def ofList (entries : List (κ × α)) : OrderedMap κ α :=
  entries.foldl (fun m p => m.insert p.1 p.2) empty

theorem get_foldl_insert (entries : List (κ × α)) (m : OrderedMap κ α) (key : κ) :
    (entries.foldl (fun m p => m.insert p.1 p.2) m).get key =
      (entries.reverse.lookup key).or (m.get key) := by
  induction entries generalizing m with
  | nil => rfl
  | cons p rest ih =>
      obtain ⟨k, v⟩ := p
      rw [List.foldl_cons, ih, get_insert, List.reverse_cons, List.lookup_append, Option.or_assoc]
      congr 1
      by_cases hkey : key = k
      · simp [hkey]
      · simp [List.lookup_cons, hkey, beq_eq_false_iff_ne.mpr hkey]

theorem get_ofList (entries : List (κ × α)) (key : κ) :
    (ofList entries).get key = entries.reverse.lookup key := by
  unfold ofList
  rw [get_foldl_insert, get_empty, Option.or_none]

theorem mem_of_lookup_eq_some {entries : List (κ × α)} {key : κ} {value : α}
    (h : entries.lookup key = some value) : (key, value) ∈ entries := by
  obtain ⟨before, after, heq, -⟩ := List.lookup_eq_some_iff.mp h
  rw [heq]
  exact List.mem_append_right _ List.mem_cons_self

theorem mem_of_mem_ofList {entries : List (κ × α)} {p : κ × α}
    (h : p ∈ (ofList entries).entries) : p ∈ entries := by
  have hget : (ofList entries).get p.1 = some p.2 := get_eq_some_iff.mpr h
  rw [get_ofList] at hget
  exact List.mem_reverse.mp (mem_of_lookup_eq_some hget)

/-- The entries of a map make up that map. -/
theorem ofList_entries (m : OrderedMap κ α) : ofList m.entries = m := by
  refine ext_get fun key => ?_
  rw [get_ofList]
  cases hlookup : m.entries.reverse.lookup key with
  | some value =>
      exact (get_eq_some_iff.mpr (List.mem_reverse.mp (mem_of_lookup_eq_some hlookup))).symm
  | none =>
      cases hget : m.get key with
      | none => rfl
      | some value =>
          have hmem := List.mem_reverse.mpr (get_eq_some_iff.mp hget)
          have hne := List.lookup_eq_none_iff.mp hlookup (key, value) hmem
          simp at hne

end OrderedMap

end RustyImap
