import Mathlib.Data.List.Basic

/-!
# Following a cursor

A source answers each cursor with one page and, where there is more, the cursor
of the next page.  `follow` reads page after page until a page comes without a
cursor; it returns nothing when the fuel runs out before that.

The rules separate the three questions a client has: whether the pages put
together are the whole (`flatten_of_follow`), whether the walk ends
(`exists_follow_of_measure`), and when it cannot (`follow_eq_none_of_stuck`).
-/

namespace RustyImap.CursorWalk

variable {κ α : Type*} (fetch : κ → List α × Option κ)

/-- The pages from cursor `k` on, one for each unit of fuel. -/
def follow : Nat → κ → Option (List (List α))
  | 0, _ => none
  | fuel + 1, k =>
      match (fetch k).2 with
      | none => some [(fetch k).1]
      | some next => (follow fuel next).map fun pages => (fetch k).1 :: pages

theorem follow_of_last {k : κ} (h : (fetch k).2 = none) (fuel : Nat) :
    follow fetch (fuel + 1) k = some [(fetch k).1] := by
  simp only [follow, h]

theorem follow_of_next {k next : κ} (h : (fetch k).2 = some next) (fuel : Nat) :
    follow fetch (fuel + 1) k =
      (follow fetch fuel next).map fun pages => (fetch k).1 :: pages := by
  simp only [follow, h]

variable {fetch}

/-- If every page is the front of what is left at its cursor, and the rest is
    what is left at the next one, the pages make up all that was left. -/
theorem flatten_of_follow {left : κ → List α}
    (hlast : ∀ k, (fetch k).2 = none → (fetch k).1 = left k)
    (hnext : ∀ k next, (fetch k).2 = some next → (fetch k).1 ++ left next = left k)
    {fuel : Nat} {k : κ} {pages : List (List α)} (h : follow fetch fuel k = some pages) :
    pages.flatten = left k := by
  induction fuel generalizing k pages with
  | zero => simp [follow] at h
  | succ fuel ih =>
      cases hcursor : (fetch k).2 with
      | none =>
          rw [follow_of_last fetch hcursor] at h
          obtain rfl := Option.some.inj h
          simpa using hlast k hcursor
      | some next =>
          rw [follow_of_next fetch hcursor, Option.map_eq_some_iff] at h
          obtain ⟨later, hlater, rfl⟩ := h
          rw [List.flatten_cons, ih hlater, hnext k next hcursor]

/-- If every cursor handed out is smaller in some measure, the walk ends. -/
theorem exists_follow_of_measure (measure : κ → Nat)
    (hsmaller : ∀ k next, (fetch k).2 = some next → measure next < measure k)
    {fuel : Nat} {k : κ} (hfuel : measure k < fuel) :
    ∃ pages, follow fetch fuel k = some pages := by
  induction fuel generalizing k with
  | zero => exact absurd hfuel (Nat.not_lt_zero _)
  | succ fuel ih =>
      cases hcursor : (fetch k).2 with
      | none => exact ⟨_, follow_of_last fetch hcursor fuel⟩
      | some next =>
          have hless := hsmaller k next hcursor
          obtain ⟨later, hlater⟩ := @ih next (by omega)
          exact ⟨_, by rw [follow_of_next fetch hcursor, hlater, Option.map_some]⟩

/-- A page whose cursor leads back to itself is read forever. -/
theorem follow_eq_none_of_stuck {k : κ} (hstuck : (fetch k).2 = some k) (fuel : Nat) :
    follow fetch fuel k = none := by
  induction fuel with
  | zero => rfl
  | succ fuel ih => rw [follow_of_next fetch hstuck, ih, Option.map_none]

end RustyImap.CursorWalk
