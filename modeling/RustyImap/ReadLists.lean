import Mathlib.Data.List.Forall2

/-!
# Lists read element by element

A reader of one element taken over a list: when it answers, what it answers, and
what an element of the answer was read from.
-/

namespace RustyImap.ReadLists

variable {α β : Type*} {f : α → Option β} {l : List α} {bs : List β}

theorem mapM_eq_some_iff :
    l.mapM f = some bs ↔ List.Forall₂ (fun a b => f a = some b) l bs := by
  induction l generalizing bs with
  | nil =>
      rw [List.mapM_nil, List.forall₂_nil_left_iff]
      exact Option.some_inj.trans eq_comm
  | cons a rest ih =>
      rw [List.mapM_cons, List.forall₂_cons_left_iff]
      constructor
      · intro h
        obtain ⟨b, hb, h⟩ := Option.bind_eq_some_iff.mp h
        obtain ⟨bs', hrest, h⟩ := Option.bind_eq_some_iff.mp h
        exact ⟨b, bs', hb, ih.mp hrest, (Option.some.inj h).symm⟩
      · rintro ⟨b, bs', hb, hrest, rfl⟩
        rw [hb, ih.mpr hrest]
        rfl

theorem mapM_map_eq_some_map_iff {γ : Type*} {xs : List γ} {write : γ → α} {k : γ → β} :
    (xs.map write).mapM f = some (xs.map k) ↔ ∀ x ∈ xs, f (write x) = some (k x) := by
  rw [mapM_eq_some_iff, List.forall₂_map_left_iff, List.forall₂_map_right_iff, List.forall₂_same]

/-- What is written element by element is read back where each element is. -/
theorem mapM_map_eq_some_iff {write : β → α} :
    (bs.map write).mapM f = some bs ↔ ∀ b ∈ bs, f (write b) = some b := by
  rw [← mapM_map_eq_some_map_iff (k := fun b => b), List.map_id']

theorem mapM_isSome (f : α → Option β) (l : List α) :
    (l.mapM f).isSome = l.all fun a => (f a).isSome := by
  induction l with
  | nil => rfl
  | cons a rest ih =>
      rw [List.mapM_cons, List.all_cons, ← ih]
      rcases f a with _ | b
      · rfl
      · rcases rest.mapM f with _ | bs <;> rfl

/-- A list and what it is read to are empty together. -/
theorem eq_nil_iff_of_mapM (h : l.mapM f = some bs) : l = [] ↔ bs = [] := by
  have hpairs := mapM_eq_some_iff.mp h
  constructor
  · rintro rfl
    exact List.forall₂_nil_left_iff.mp hpairs
  · rintro rfl
    exact List.forall₂_nil_right_iff.mp hpairs

theorem exists_of_mem_right {R : α → β → Prop} (h : List.Forall₂ R l bs) {b : β} (hb : b ∈ bs) :
    ∃ a ∈ l, R a b := by
  induction h with
  | nil => exact absurd hb List.not_mem_nil
  | cons hab _ ih =>
      rcases List.mem_cons.mp hb with rfl | hb
      · exact ⟨_, List.mem_cons_self, hab⟩
      · obtain ⟨a, ha, hR⟩ := ih hb
        exact ⟨a, List.mem_cons_of_mem _ ha, hR⟩

end RustyImap.ReadLists
