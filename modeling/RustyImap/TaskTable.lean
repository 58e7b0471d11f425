import Mathlib

/-!
# Tables of concurrent tasks

A task is an entry of an append-only list and its index is its identity: a task
that has ended keeps its place, in an ended phase.  A transition replaces the
phase of one task or appends a task, and the lemmas below say what that does to
a count over the table and to a property of all tasks.
-/

namespace RustyImap.TaskTable

variable {α : Type*}

/-- Replacing one task moves a count by what the two phases contribute. -/
theorem countP_set_add {p : α → Bool} {tasks : List α} {i : Nat} {old : α}
    (h : tasks[i]? = some old) (new : α) :
    (tasks.set i new).countP p + (if p old then 1 else 0) =
      tasks.countP p + if p new then 1 else 0 := by
  obtain ⟨hi, rfl⟩ := List.getElem?_eq_some_iff.mp h
  have hle := List.boole_getElem_le_countP (p := p) hi
  rw [List.countP_set hi]
  omega

/-- A counted task that stays counted. -/
theorem countP_set_of_counted {p : α → Bool} {tasks : List α} {i : Nat} {old new : α}
    (h : tasks[i]? = some old) (hold : p old = true) (hnew : p new = true) :
    (tasks.set i new).countP p = tasks.countP p := by
  have hset := countP_set_add (p := p) h new
  rw [if_pos hold, if_pos hnew] at hset
  omega

/-- A counted task that ends. -/
theorem countP_set_of_ended {p : α → Bool} {tasks : List α} {i : Nat} {old new : α}
    (h : tasks[i]? = some old) (hold : p old = true) (hnew : p new = false) :
    (tasks.set i new).countP p + 1 = tasks.countP p := by
  have hset := countP_set_add (p := p) h new
  rw [if_pos hold, if_neg (by simp [hnew])] at hset
  omega

/-- Replacing one task moves a sum of weights by the difference of the two. -/
theorem sum_map_set_add (weight : α → Nat) {tasks : List α} {i : Nat} {old : α}
    (h : tasks[i]? = some old) (new : α) :
    ((tasks.set i new).map weight).sum + weight old = (tasks.map weight).sum + weight new := by
  induction tasks generalizing i with
  | nil => simp at h
  | cons head tail ih =>
      cases i with
      | zero =>
          simp only [List.getElem?_cons_zero, Option.some.injEq] at h
          subst h
          simp only [List.set_cons_zero, List.map_cons, List.sum_cons]
          omega
      | succ i =>
          have htail := ih (by simpa using h)
          simp only [List.set_cons_succ, List.map_cons, List.sum_cons]
          omega

theorem forall_mem_set {P : α → Prop} {tasks : List α} (h : ∀ task ∈ tasks, P task) (i : Nat)
    {new : α} (hnew : P new) : ∀ task ∈ tasks.set i new, P task := by
  intro task hmem
  rcases List.mem_or_eq_of_mem_set hmem with hmem | rfl
  · exact h task hmem
  · exact hnew

theorem forall_mem_concat {P : α → Prop} {tasks : List α} (h : ∀ task ∈ tasks, P task)
    {new : α} (hnew : P new) : ∀ task ∈ tasks ++ [new], P task := by
  intro task hmem
  rcases List.mem_append.mp hmem with hmem | hmem
  · exact h task hmem
  · rw [List.mem_singleton.mp hmem]
    exact hnew

end RustyImap.TaskTable
