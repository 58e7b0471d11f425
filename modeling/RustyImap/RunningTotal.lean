import Mathlib

/-!
# A running total with a cap

A loop adds one size after the other to a total and looks at the cap after each:
it stops at the first total that reaches the cap.  The last size is then added as
a whole, so the total may end above the cap; `NoOvershoot` says when it does not.
-/

namespace RustyImap.RunningTotal

/-- The total that the loop ends with. -/
def total (cap : Nat) : Nat → List Nat → Nat
  | used, [] => used
  | used, n :: rest => if cap ≤ used + n then used + n else total cap (used + n) rest

/-- From below the cap, no size goes beyond it. -/
def NoOvershoot (cap used : Nat) (sizes : List Nat) : Prop :=
  ∀ k, used + (sizes.take k).sum < cap → used + (sizes.take (k + 1)).sum ≤ cap

variable {cap used : Nat} {sizes : List Nat}

theorem total_cons_of_le {n : Nat} (h : cap ≤ used + n) : total cap used (n :: sizes) = used + n :=
  if_pos h

theorem total_cons_of_lt {n : Nat} (h : used + n < cap) :
    total cap used (n :: sizes) = total cap (used + n) sizes :=
  if_neg (Nat.not_le.mpr h)

/-- A loop over two lists goes on with the second where the first did not stop it. -/
theorem total_append (h : used < cap) (first second : List Nat) :
    total cap used (first ++ second) =
      if cap ≤ total cap used first then total cap used first
      else total cap (total cap used first) second := by
  induction first generalizing used with
  | nil =>
      have hused : ¬cap ≤ total cap used [] := Nat.not_le.mpr h
      rw [if_neg hused]
      rfl
  | cons n rest ih =>
      by_cases hn : cap ≤ used + n
      · rw [List.cons_append, total_cons_of_le hn, total_cons_of_le hn, if_pos hn]
      · have hlt : used + n < cap := Nat.not_le.mp hn
        rw [List.cons_append, total_cons_of_lt hlt, total_cons_of_lt hlt, ih hlt]

theorem noOvershoot_nil (h : used ≤ cap) : NoOvershoot cap used [] := by
  intro k _
  simpa using h

theorem noOvershoot_cons {n : Nat} (h : used < cap) :
    NoOvershoot cap used (n :: sizes) ↔ used + n ≤ cap ∧ NoOvershoot cap (used + n) sizes := by
  constructor
  · intro hall
    refine ⟨by simpa using hall 0 (by simpa using h), ?_⟩
    intro k hk
    have hstep := hall (k + 1) (by simpa [Nat.add_assoc] using hk)
    simpa [Nat.add_assoc] using hstep
  · rintro ⟨hfirst, hrest⟩ k hk
    cases k with
    | zero => simpa using hfirst
    | succ k =>
        have hstep := hrest k (by simpa [Nat.add_assoc] using hk)
        simpa [Nat.add_assoc] using hstep

/-- The total keeps to the cap exactly when no size goes beyond it. -/
theorem total_le_iff (h : used < cap) :
    total cap used sizes ≤ cap ↔ NoOvershoot cap used sizes := by
  induction sizes generalizing used with
  | nil =>
      have hused : used ≤ cap := Nat.le_of_lt h
      exact iff_of_true hused (noOvershoot_nil hused)
  | cons n rest ih =>
      rw [noOvershoot_cons h]
      by_cases hn : cap ≤ used + n
      · rw [total_cons_of_le hn]
        refine ⟨fun hle => ⟨hle, fun k hk => ?_⟩, And.left⟩
        omega
      · have hlt : used + n < cap := Nat.not_le.mp hn
        rw [total_cons_of_lt hlt, ih hlt]
        exact ⟨fun hrest => ⟨Nat.le_of_lt hlt, hrest⟩, And.right⟩

/-- Sizes of at most `most` leave the total less than `most` above the cap. -/
theorem total_lt_add {most : Nat} (h : used < cap) (hmost : ∀ n ∈ sizes, n ≤ most) :
    total cap used sizes < cap + most := by
  induction sizes generalizing used with
  | nil => exact Nat.lt_add_right most h
  | cons n rest ih =>
      obtain ⟨hn, hrest⟩ := List.forall_mem_cons.mp hmost
      by_cases hle : cap ≤ used + n
      · rw [total_cons_of_le hle]
        omega
      · have hlt : used + n < cap := Nat.not_le.mp hle
        rw [total_cons_of_lt hlt]
        exact ih hlt hrest

end RustyImap.RunningTotal
