import Mathlib.Data.List.Basic

/-!
# Finite runs of labelled partial transition systems

A system is a partial step function `step : σ → α → Option σ`: the label `α`
carries every choice of the scheduler and of the environment, and `none` means
that the label is not enabled in the state.  A run is a list of labels, so an
interleaving is data: it can be executed, split and quantified over.

`AllSteps step ok s as` says that each step of the run from `s` along `as`
meets `ok`, a condition on the label and the state before the step.  The
induction rules below carry an invariant along such a run; `allSteps_iff_split`
turns the recursive reading into the one over all prefixes.
-/

namespace RustyImap.LabelledRuns

variable {σ α : Type*} (step : σ → α → Option σ)

/-- Execute a list of labels; `none` as soon as one of them is not enabled. -/
def run : σ → List α → Option σ
  | s, [] => some s
  | s, a :: as => (step s a).bind fun t => run t as

@[simp] theorem run_nil (s : σ) : run step s [] = some s := rfl

@[simp] theorem run_cons (s : σ) (a : α) (as : List α) :
    run step s (a :: as) = (step s a).bind fun t => run step t as := rfl

theorem run_append (s : σ) (as bs : List α) :
    run step s (as ++ bs) = (run step s as).bind fun t => run step t bs := by
  induction as generalizing s with
  | nil => rfl
  | cons a as ih =>
      simp only [List.cons_append, run_cons]
      cases hstep : step s a with
      | none => rfl
      | some t => simpa using ih t

/-- A run along `as ++ bs` passes through the state that `as` leads to. -/
theorem run_append_eq_some {s u : σ} {as bs : List α} :
    run step s (as ++ bs) = some u ↔
      ∃ t, run step s as = some t ∧ run step t bs = some u := by
  rw [run_append, Option.bind_eq_some_iff]

theorem run_cons_eq_some {s u : σ} {a : α} {as : List α} :
    run step s (a :: as) = some u ↔
      ∃ t, step s a = some t ∧ run step t as = some u := by
  rw [run_cons, Option.bind_eq_some_iff]

/-- One more step at the end of a run. -/
theorem run_concat {s t u : σ} {as : List α} {a : α}
    (hrun : run step s as = some t) (hstep : step t a = some u) :
    run step s (as ++ [a]) = some u := by
  rw [run_append_eq_some]
  exact ⟨t, hrun, by simp [hstep]⟩

/-- Every step of the run from `s` meets `ok`, a condition on the state before
    the step and the label taken there. -/
def AllSteps (ok : σ → α → Prop) : σ → List α → Prop
  | _, [] => True
  | s, a :: as => ok s a ∧ ∀ t, step s a = some t → AllSteps ok t as

instance decidableAllSteps (ok : σ → α → Prop) [∀ s a, Decidable (ok s a)] :
    (s : σ) → (as : List α) → Decidable (AllSteps step ok s as)
  | _, [] => isTrue trivial
  | s, a :: as =>
      match h : step s a with
      | none => decidable_of_iff (ok s a) (by simp [AllSteps, h])
      | some t =>
          have := decidableAllSteps ok t as
          decidable_of_iff (ok s a ∧ AllSteps step ok t as) (by simp [AllSteps, h])

variable {step}

theorem allSteps_append {ok : σ → α → Prop} {s : σ} {as bs : List α} :
    AllSteps step ok s (as ++ bs) ↔
      AllSteps step ok s as ∧ ∀ t, run step s as = some t → AllSteps step ok t bs := by
  induction as generalizing s with
  | nil =>
      constructor
      · intro h
        refine ⟨trivial, ?_⟩
        rintro t ⟨rfl⟩
        exact h
      · rintro ⟨-, h⟩
        exact h s rfl
  | cons a as ih =>
      constructor
      · rintro ⟨hok, hrest⟩
        refine ⟨⟨hok, fun t ht => (ih.mp (hrest t ht)).1⟩, ?_⟩
        intro u hu
        obtain ⟨t, ht, hrun⟩ := (run_cons_eq_some step).mp hu
        exact (ih.mp (hrest t ht)).2 u hrun
      · rintro ⟨⟨hok, hfront⟩, hback⟩
        refine ⟨hok, fun t ht => ih.mpr ⟨hfront t ht, ?_⟩⟩
        intro u hu
        exact hback u ((run_cons_eq_some step).mpr ⟨t, ht, hu⟩)

theorem allSteps_of_forall {P : α → Prop} {s : σ} {as : List α} (hP : ∀ a ∈ as, P a) :
    AllSteps step (fun _ a => P a) s as := by
  induction as generalizing s with
  | nil => trivial
  | cons a as ih =>
      refine ⟨hP a (by simp), ?_⟩
      intro t _
      exact ih fun b hb => hP b (by simp [hb])

theorem AllSteps.and {ok ok' : σ → α → Prop} {s : σ} {as : List α}
    (h : AllSteps step ok s as) (h' : AllSteps step ok' s as) :
    AllSteps step (fun s a => ok s a ∧ ok' s a) s as := by
  induction as generalizing s with
  | nil => trivial
  | cons a as ih =>
      refine ⟨⟨h.1, h'.1⟩, ?_⟩
      intro t ht
      exact ih (h.2 t ht) (h'.2 t ht)

/-- `AllSteps` over all prefixes: whenever the run reaches `t` with `a` next,
    `ok t a` holds. -/
theorem allSteps_iff_split {ok : σ → α → Prop} {s : σ} {as : List α} :
    AllSteps step ok s as ↔
      ∀ before a after, as = before ++ a :: after →
        ∀ t, run step s before = some t → ok t a := by
  constructor
  · intro h before a after has t ht
    subst has
    exact ((allSteps_append.mp h).2 t ht).1
  · intro h
    induction as generalizing s with
    | nil => trivial
    | cons a as ih =>
        refine ⟨h [] a as rfl s rfl, ?_⟩
        intro t ht
        apply ih
        intro before b after has u hu
        refine h (a :: before) b after (by rw [has]; rfl) u ?_
        exact (run_cons_eq_some step).mpr ⟨t, ht, hu⟩

/-- **Invariant rule for guarded runs.**  An invariant that every step meeting
    `ok` preserves holds at the end of every run whose steps all meet `ok`. -/
theorem invariant_of_allSteps {ok : σ → α → Prop} {Inv : σ → Prop}
    (hpres : ∀ s a t, Inv s → ok s a → step s a = some t → Inv t)
    {s t : σ} {as : List α} (hinv : Inv s) (hok : AllSteps step ok s as)
    (hrun : run step s as = some t) : Inv t := by
  induction as generalizing s with
  | nil => cases hrun; exact hinv
  | cons a as ih =>
      obtain ⟨u, hstep, hrest⟩ := (run_cons_eq_some step).mp hrun
      exact ih (hpres s a u hinv hok.1 hstep) (hok.2 u hstep) hrest

/-- **Invariant rule for runs.** -/
theorem invariant_of_run {Inv : σ → Prop}
    (hpres : ∀ s a t, Inv s → step s a = some t → Inv t)
    {s t : σ} {as : List α} (hinv : Inv s) (hrun : run step s as = some t) :
    Inv t := by
  induction as generalizing s with
  | nil => cases hrun; exact hinv
  | cons a as ih =>
      obtain ⟨u, hstep, hrest⟩ := (run_cons_eq_some step).mp hrun
      exact ih (hpres s a u hinv hstep) hrest

/-- **Rule for spoilt runs.**  Where a step that breaks `ok` leads from `Good` to `Bad`
    and nothing leads back, the end of a run tells whether all of its steps met `ok`. -/
theorem good_or_bad_of_run {ok : σ → α → Prop} {Good Bad : σ → Prop}
    (hgood : ∀ s a t, Good s → ok s a → step s a = some t → Good t)
    (hspoil : ∀ s a t, Good s → ¬ ok s a → step s a = some t → Bad t)
    (hbad : ∀ s a t, Bad s → step s a = some t → Bad t)
    {s t : σ} {as : List α} (hstart : Good s) (hrun : run step s as = some t) :
    (AllSteps step ok s as ∧ Good t) ∨ (¬ AllSteps step ok s as ∧ Bad t) := by
  induction as generalizing s with
  | nil =>
      cases hrun
      exact .inl ⟨trivial, hstart⟩
  | cons a as ih =>
      obtain ⟨u, hstep, hrest⟩ := (run_cons_eq_some step).mp hrun
      by_cases hok : ok s a
      · have hnext : AllSteps step ok s (a :: as) ↔ AllSteps step ok u as := by
          simp [AllSteps, hok, hstep]
        rw [hnext]
        exact ih (hgood s a u hstart hok hstep) hrest
      · exact .inr ⟨fun h => hok h.1, invariant_of_run hbad (hspoil s a u hstart hok hstep) hrest⟩

/-- A condition that an invariant gives at every enabled step holds of every
    step of a run. -/
theorem allSteps_of_run {Inv : σ → Prop} {ok : σ → α → Prop}
    (hpres : ∀ s a t, Inv s → step s a = some t → Inv t)
    (hok : ∀ s a t, Inv s → step s a = some t → ok s a)
    {s t : σ} {as : List α} (hinv : Inv s) (hrun : run step s as = some t) :
    AllSteps step ok s as := by
  induction as generalizing s with
  | nil => trivial
  | cons a as ih =>
      obtain ⟨u, hstep, hrest⟩ := (run_cons_eq_some step).mp hrun
      refine ⟨hok s a u hinv hstep, ?_⟩
      intro v hv
      rw [hstep] at hv
      cases hv
      exact ih (hpres s a u hinv hstep) hrest

/-- Whatever enabled `ok` steps are taken, `P` is reached: it holds already, or
    some such step is enabled and each of them leads to a state from which `P`
    is reached. -/
inductive Inevitable (step : σ → α → Option σ) (ok : σ → α → Prop) (P : σ → Prop) : σ → Prop where
  | here {s : σ} (h : P s) : Inevitable step ok P s
  | later {s : σ} (henabled : ∃ a t, ok s a ∧ step s a = some t)
      (hnext : ∀ a t, ok s a → step s a = some t → Inevitable step ok P t) :
      Inevitable step ok P s

/-- **Measure rule.**  If every `ok` step keeps the invariant and lowers a measure that
    the invariant vouches for, and one is enabled as long as `P` does not hold, `P` is
    inevitable. -/
theorem inevitable_of_guarded_measure {ok : σ → α → Prop} {Inv P : σ → Prop} (measure : σ → Nat)
    (hpres : ∀ s a t, Inv s → ok s a → step s a = some t → Inv t)
    (hless : ∀ s a t, Inv s → ok s a → step s a = some t → measure t < measure s)
    (henabled : ∀ s, Inv s → ¬ P s → ∃ a t, ok s a ∧ step s a = some t)
    {s : σ} (hinv : Inv s) : Inevitable step ok P s := by
  induction hm : measure s using Nat.strongRecOn generalizing s with
  | ind m ih =>
      by_cases hP : P s
      · exact .here hP
      · refine .later (henabled s hinv hP) ?_
        intro a t hok hstep
        have hlt := hless s a t hinv hok hstep
        exact ih (measure t) (hm ▸ hlt) (hpres s a t hinv hok hstep) rfl

/-- The rule for a measure that every `ok` step lowers. -/
theorem inevitable_of_measure {ok : σ → α → Prop} {Inv P : σ → Prop} (measure : σ → Nat)
    (hpres : ∀ s a t, Inv s → ok s a → step s a = some t → Inv t)
    (hless : ∀ s a t, ok s a → step s a = some t → measure t < measure s)
    (henabled : ∀ s, Inv s → ¬ P s → ∃ a t, ok s a ∧ step s a = some t)
    {s : σ} (hinv : Inv s) : Inevitable step ok P s :=
  inevitable_of_guarded_measure measure hpres (fun s a t _ => hless s a t) henabled hinv

/-- Where no `ok` step is enabled, only what holds already is inevitable. -/
theorem Inevitable.of_stuck {ok : σ → α → Prop} {P : σ → Prop} {s : σ}
    (h : Inevitable step ok P s) (hstuck : ∀ a t, ok s a → step s a ≠ some t) : P s := by
  cases h with
  | here h => exact h
  | later henabled _ =>
      obtain ⟨a, t, hok, hstep⟩ := henabled
      exact absurd hstep (hstuck a t hok)

end RustyImap.LabelledRuns
