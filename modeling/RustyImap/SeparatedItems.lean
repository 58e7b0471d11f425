import RustyImap.ReadLists

/-!
# Items between separators

Pieces over any alphabet with one separator between two of them, as a loop writes
them and as a grammar reads them.  `push` is the step of a writer that asks its
output whether it is at the first piece; `readItems` cuts at the separators and
reads piece by piece.
-/

namespace RustyImap.SeparatedItems

open ReadLists

variable {α β : Type*}

/-! ## Writing -/

/-- The pieces with the separator between them. -/
def joined (sep : α) (pieces : List (List α)) : List α := [sep].intercalate pieces

/-- A piece behind a separator, unless nothing is written yet. -/
def push (sep : α) (out piece : List α) : List α :=
  if out = [] then piece else out ++ sep :: piece

variable {sep : α} {pieces : List (List α)}

theorem joined_cons {first : List α} (hne : pieces ≠ []) :
    joined sep (first :: pieces) = first ++ sep :: joined sep pieces := by
  unfold joined
  rw [List.intercalate_cons_of_ne_nil hne, List.append_assoc]
  rfl

theorem joined_concat (hne : pieces ≠ []) (piece : List α) :
    joined sep (pieces ++ [piece]) = joined sep pieces ++ sep :: piece := by
  induction pieces with
  | nil => exact absurd rfl hne
  | cons first rest ih =>
      cases rest with
      | nil => simp [joined]
      | cons second rest =>
          rw [List.cons_append, joined_cons (by simp), joined_cons (by simp),
            ih (List.cons_ne_nil second rest), List.append_assoc]
          rfl

/-- The step of a writer that counts the pieces instead. -/
theorem joined_concat_index (pieces : List (List α)) (piece : List α) :
    (if 0 < pieces.length then joined sep pieces ++ [sep] else joined sep pieces) ++ piece =
      joined sep (pieces ++ [piece]) := by
  by_cases hne : pieces = []
  · subst hne
    simp [joined]
  · rw [if_pos (List.length_pos_iff.mpr hne), joined_concat hne, List.append_assoc]
    rfl

theorem joined_eq_nil_iff (hpieces : ∀ piece ∈ pieces, piece ≠ []) :
    joined sep pieces = [] ↔ pieces = [] := by
  constructor
  · intro h
    cases pieces with
    | nil => rfl
    | cons first rest =>
        have hfirst : first ≠ [] := hpieces first (by simp)
        cases rest with
        | nil => exact absurd (by simpa [joined] using h) hfirst
        | cons second rest =>
            rw [joined_cons (by simp)] at h
            simp at h
  · intro h
    rw [h]
    rfl

theorem push_joined (hpieces : ∀ piece ∈ pieces, piece ≠ []) (piece : List α) :
    push sep (joined sep pieces) piece = joined sep (pieces ++ [piece]) := by
  unfold push
  by_cases hne : pieces = []
  · subst hne
    simp [joined]
  · rw [if_neg (mt (joined_eq_nil_iff hpieces).mp hne), joined_concat hne]

/-! ## Reading -/

/-- The pieces between the separators, each read. -/
def readItems [DecidableEq α] (sep : α) (read : List α → Option β) (text : List α) :
    Option (List β) :=
  (text.splitOn sep).mapM read

/-- A piece holds nothing but what the text holds. -/
theorem mem_of_mem_splitOnP {p : α → Bool} {l piece : List α} {c : α}
    (hpiece : piece ∈ l.splitOnP p) (hc : c ∈ piece) : c ∈ l := by
  induction l generalizing piece with
  | nil =>
      rw [List.splitOnP_nil, List.mem_singleton] at hpiece
      rwa [hpiece] at hc
  | cons x rest ih =>
      rw [List.splitOnP_cons_eq_if_modifyHead] at hpiece
      split at hpiece
      · rcases List.mem_cons.mp hpiece with rfl | hpiece
        · cases hc
        · exact List.mem_cons_of_mem _ (ih hpiece hc)
      · rcases hrest : rest.splitOnP p with _ | ⟨first, others⟩
        · exact absurd hrest (List.splitOnP_ne_nil p rest)
        · rw [hrest, List.modifyHead_cons] at hpiece
          rcases List.mem_cons.mp hpiece with rfl | hpiece
          · rcases List.mem_cons.mp hc with rfl | hc
            · exact List.mem_cons_self
            · exact List.mem_cons_of_mem _ (ih (hrest ▸ List.mem_cons_self) hc)
          · exact List.mem_cons_of_mem _ (ih (hrest ▸ List.mem_cons_of_mem _ hpiece) hc)

section Reading

variable [DecidableEq α] {read : List α → Option β}

/-- **What is joined without a separator of its own is read piece by piece.** -/
theorem readItems_joined (hne : pieces ≠ []) (hsep : ∀ piece ∈ pieces, sep ∉ piece) :
    readItems sep read (joined sep pieces) = pieces.mapM read := by
  unfold readItems joined
  rw [List.splitOn_intercalate sep hsep hne]

/-- Items that are written in one way only, without the separator, are read where that way
    stands, and nowhere else. -/
theorem readItems_eq_some_iff {write : β → List α}
    (hread : ∀ {piece b}, read piece = some b → piece = write b ∧ sep ∉ piece)
    {text : List α} {items : List β} (hitems : items ≠ []) :
    readItems sep read text = some items ↔
      text = joined sep (items.map write) ∧ ∀ b ∈ items, read (write b) = some b := by
  constructor
  · intro h
    have heq : text.splitOn sep = items.map write := by
      rw [← List.forall₂_eq_eq_eq, List.forall₂_map_right_iff]
      exact (mapM_eq_some_iff.mp h).imp fun _ _ hb => (hread hb).1
    rw [readItems, heq, mapM_map_eq_some_iff] at h
    rw [joined, ← heq, List.intercalate_splitOn]
    exact ⟨rfl, h⟩
  · rintro ⟨rfl, hpieces⟩
    have hsep : ∀ piece ∈ items.map write, sep ∉ piece := by
      rw [List.forall_mem_map]
      intro b hb
      exact (hread (hpieces b hb)).2
    rw [readItems_joined (by simpa using hitems) hsep, mapM_map_eq_some_iff]
    exact hpieces

theorem readItems_ne_nil (text : List α) : readItems sep read text ≠ some [] := by
  intro h
  exact List.splitOn_ne_nil sep text ((eq_nil_iff_of_mapM h).mpr rfl)

end Reading

end RustyImap.SeparatedItems
