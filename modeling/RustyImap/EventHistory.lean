import Mathlib.Data.List.Induction

/-!
# Histories whose events are licensed by what came before

A history is the list of the events of a program so far, oldest first.  A rule
`ok : List α → α → Prop` says which event may follow which history, and
`Licensed ok h` that each event of `h` was allowed by the events before it.  A
program keeps its history licensed when it only appends events that the rule
allows, which is what `licensed_append_singleton` asks for; what holds of a
licensed history is read off at the split around an event.
-/

namespace RustyImap.EventHistory

variable {α β : Type*} {ok ok' : List α → α → Prop}

/-- Each event was allowed by the events before it. -/
def Licensed (ok : List α → α → Prop) (h : List α) : Prop :=
  ∀ before event after, h = before ++ event :: after → ok before event

theorem licensed_nil : Licensed ok [] := by
  intro before event after h
  simp at h

theorem licensed_append_singleton {h : List α} {event : α} :
    Licensed ok (h ++ [event]) ↔ Licensed ok h ∧ ok h event := by
  constructor
  · intro hlic
    refine ⟨?_, hlic h event [] rfl⟩
    intro before e after heq
    exact hlic before e (after ++ [event]) (by simp [heq])
  · rintro ⟨hlic, hok⟩ before e after heq
    rcases List.eq_nil_or_concat after with rfl | ⟨front, last, rfl⟩
    · obtain ⟨rfl, hlast⟩ := List.append_inj' heq rfl
      cases hlast
      exact hok
    · rw [List.concat_eq_append, ← List.cons_append, ← List.append_assoc] at heq
      exact hlic before e front (List.append_inj_left' heq rfl)

theorem Licensed.mono (himp : ∀ before event, ok before event → ok' before event) {h : List α}
    (hlic : Licensed ok h) : Licensed ok' h :=
  fun before event after heq => himp before event (hlic before event after heq)

/-- What an event needed is among the events of the history. -/
theorem Licensed.exists_before {h : List α} (hlic : Licensed ok h) {event : α} (hmem : event ∈ h) :
    ∃ before after, h = before ++ event :: after ∧ ok before event := by
  obtain ⟨before, after, rfl⟩ := List.append_of_mem hmem
  exact ⟨before, after, rfl, hlic before event after rfl⟩

/-- An event that may not follow another one of its kind occurs once at most. -/
theorem Licensed.countP_le_one {p : α → Bool} {h : List α} (hlic : Licensed ok h)
    (honce : ∀ before event, ok before event → p event = true → ∀ e ∈ before, p e = false) :
    h.countP p ≤ 1 := by
  induction h using List.reverseRecOn with
  | nil => simp
  | append_singleton front event ih =>
      rw [licensed_append_singleton] at hlic
      rw [List.countP_append, List.countP_singleton]
      by_cases hp : p event = true
      · have hfront : front.countP p = 0 :=
          List.countP_eq_zero.mpr fun e he => by simp [honce front event hlic.2 hp e he]
        simp [hfront, hp]
      · simpa [hp] using ih hlic.1

/-- The first reading of a history: a slot that is set once holds it. -/
theorem findSome?_append_singleton (f : α → Option β) (h : List α) (event : α) :
    (h ++ [event]).findSome? f = (h.findSome? f).or (f event) := by
  rw [List.findSome?_append]
  congr 1
  cases hf : f event <;> simp [List.findSome?, hf]

end RustyImap.EventHistory
