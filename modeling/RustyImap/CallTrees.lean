import Mathlib
import RustyImap.LabelledRuns

/-!
# Programs as trees of calls, and pools of them

A program is a tree: it ends, or it makes a call and goes on with the answer.  What
a call does is not part of the tree.  `Within P` says that the program makes no call
outside of `P`, whatever it is answered.

A pool runs any number of such programs against one shared state.  A label starts a
program, lets one of them make its next call, or drops one; each call is atomic, and
it may end its program instead of answering.  What every call in `P` does to the
state, a run of the pool does to it: step by step (`carried_of_step`) and, for a
preorder, from the first state to the last (`related_of_run`).
-/

namespace RustyImap.CallTrees

open RustyImap.LabelledRuns

variable {Op : Type} {Ans : Op → Type}

inductive Tree (Ans : Op → Type) (α : Type) : Type where
  | done (value : α)
  | call (op : Op) (next : Ans op → Tree Ans α)

namespace Tree

variable {α β : Type}

def bind : Tree Ans α → (α → Tree Ans β) → Tree Ans β
  | .done a, f => f a
  | .call op next, f => .call op fun answer => (next answer).bind f

instance : Monad (Tree Ans) where
  pure := .done
  bind := bind

/-- One call, for its answer. -/
def ask (op : Op) : Tree Ans (Ans op) := .call op .done

/-- Every call that the program can make is a `P`. -/
def Within (P : Op → Prop) : Tree Ans α → Prop
  | .done _ => True
  | .call op next => P op ∧ ∀ answer, (next answer).Within P

variable {P Q : Op → Prop}

theorem within_pure (a : α) : Within P (pure a : Tree Ans α) := trivial

theorem within_ask {op : Op} (h : P op) : Within P (ask op : Tree Ans (Ans op)) :=
  ⟨h, fun _ => trivial⟩

theorem within_bind {p : Tree Ans α} {f : α → Tree Ans β} (hp : p.Within P)
    (hf : ∀ a, (f a).Within P) : Within P (p >>= f) := by
  induction p with
  | done a => exact hf a
  | call op next ih => exact ⟨hp.1, fun answer => ih answer (hp.2 answer)⟩

theorem Within.mono {p : Tree Ans α} (hp : p.Within P) (hPQ : ∀ op, P op → Q op) :
    p.Within Q := by
  induction p with
  | done a => trivial
  | call op next ih => exact ⟨hPQ op hp.1, fun answer => ih answer (hp.2 answer)⟩

/-- At most so many calls that `counts` holds of, whatever the program is answered. -/
def AtMost (counts : Op → Bool) : Nat → Tree Ans α → Prop
  | _, .done _ => True
  | n, .call op next =>
      (counts op).toNat ≤ n ∧ ∀ answer, (next answer).AtMost counts (n - (counts op).toNat)

/-- `Q` holds at every end, of what was noted of the calls and of the value. -/
def Ends {μ : Type} (note : μ → (op : Op) → Ans op → μ) (Q : μ → α → Prop) :
    μ → Tree Ans α → Prop
  | noted, .done a => Q noted a
  | noted, .call op next => ∀ answer, (next answer).Ends note Q (note noted op answer)

section

variable {counts : Op → Bool} {n k : Nat}

theorem AtMost.mono {p : Tree Ans α} (h : p.AtMost counts n) (hle : n ≤ k) :
    p.AtMost counts k := by
  induction p generalizing n k with
  | done a => trivial
  | call op next ih =>
      refine ⟨Nat.le_trans h.1 hle, ?_⟩
      intro answer
      exact ih answer (h.2 answer) (by omega)

/-- A program that makes no call that counts. -/
theorem atMost_of_within {p : Tree Ans α} (h : p.Within fun op => counts op = false) :
    p.AtMost counts n := by
  induction p generalizing n with
  | done a => trivial
  | call op next ih =>
      refine ⟨by rw [h.1]; exact Nat.zero_le n, ?_⟩
      intro answer
      exact ih answer (h.2 answer)

theorem atMost_bind {p : Tree Ans α} {f : α → Tree Ans β} (hp : p.AtMost counts n)
    (hf : ∀ a, (f a).AtMost counts k) : AtMost counts (n + k) (p >>= f) := by
  induction p generalizing n with
  | done a => exact (hf a).mono (Nat.le_add_left k n)
  | call op next ih =>
      refine ⟨Nat.le_trans hp.1 (Nat.le_add_right n k), ?_⟩
      intro answer
      have hspent := hp.1
      exact (ih answer (hp.2 answer)).mono (by omega)

end

section

variable {μ : Type} {note : μ → (op : Op) → Ans op → μ} {noted : μ}

theorem ends_bind {Q : μ → β → Prop} {p : Tree Ans α} {f : α → Tree Ans β} :
    Ends note Q noted (p >>= f) ↔
      Ends note (fun noted' a => Ends note Q noted' (f a)) noted p := by
  induction p generalizing noted with
  | done a => exact Iff.rfl
  | call op next ih => exact forall_congr' fun answer => ih answer

theorem Ends.mono {Q R : μ → α → Prop} {p : Tree Ans α} (h : p.Ends note Q noted)
    (hQR : ∀ noted' a, Q noted' a → R noted' a) : p.Ends note R noted := by
  induction p generalizing noted with
  | done a => exact hQR noted a h
  | call op next ih => exact fun answer => ih answer (h answer)

/-- Where no call changes what is noted, it is at the end what it was. -/
theorem ends_of_within {P : Op → Prop} {p : Tree Ans α} (h : p.Within P)
    (hsame : ∀ noted op answer, P op → note noted op answer = noted) :
    p.Ends note (fun noted' _ => noted' = noted) noted := by
  induction p with
  | done a => rfl
  | call op next ih =>
      intro answer
      rw [hsame noted op answer h.1]
      exact ih answer (h.2 answer)

end

end Tree

/-! ## Pools -/

variable {σ ρ χ : Type}

/-- The state and the programs that are under way; an ended one leaves none. -/
structure Pool (Ans : Op → Type) (σ : Type) where
  state : σ
  tasks : List (Option (Tree Ans Unit))

inductive Label (ρ χ : Type) where
  | start (request : ρ)
  | advance (i : Nat) (choice : χ)
  | drop (i : Nat)

/-- What a request starts, if it is admitted, and what a call does: the state after it
    and its answer, none when the program does not live to see one. -/
structure Machine (Ans : Op → Type) (σ ρ χ : Type) where
  accept : ρ → Option (Tree Ans Unit)
  perform : σ → (op : Op) → χ → σ × Option (Ans op)

variable (m : Machine Ans σ ρ χ)

def step (pool : Pool Ans σ) : Label ρ χ → Option (Pool Ans σ)
  | .start request =>
      match m.accept request with
      | some program => some { pool with tasks := pool.tasks ++ [some program] }
      | none => none
  | .advance i choice =>
      match pool.tasks[i]? with
      | some (some (.call op next)) =>
          let (state, answer) := m.perform pool.state op choice
          some ⟨state, pool.tasks.set i (answer.map next)⟩
      | some (some (.done _)) | some none | none => none
  | .drop i =>
      match pool.tasks[i]? with
      | some (some _) => some { pool with tasks := pool.tasks.set i none }
      | some none | none => none

/-- What one step does to the state: nothing, or one call that is a `P`. -/
def Carried (P : Op → Prop) (s t : σ) (label : Label ρ χ) : Prop :=
  s = t ∨ ∃ i choice op, label = .advance i choice ∧ P op ∧ t = (m.perform s op choice).1

/-- The programs of a pool make no call outside of `P`. -/
def Confined (P : Op → Prop) (pool : Pool Ans σ) : Prop :=
  ∀ program, some program ∈ pool.tasks → program.Within P

variable {m} {P : Op → Prop} {pool pool' : Pool Ans σ}

theorem confined_set (h : Confined P pool) {i : Nat} {task : Option (Tree Ans Unit)}
    (htask : ∀ program, task = some program → program.Within P) (state : σ) :
    Confined P (⟨state, pool.tasks.set i task⟩ : Pool Ans σ) := by
  intro program hmem
  rcases List.mem_or_eq_of_mem_set hmem with hold | rfl
  · exact h program hold
  · exact htask program rfl

theorem step_spec (haccept : ∀ request program, m.accept request = some program → program.Within P)
    (h : Confined P pool) {label : Label ρ χ} (hstep : step m pool label = some pool') :
    Confined P pool' ∧ Carried m P pool.state pool'.state label := by
  rcases label with request | ⟨i, choice⟩ | i
  · simp only [step] at hstep
    split at hstep
    · rename_i program hprogram
      cases hstep
      refine ⟨?_, .inl rfl⟩
      intro other hmem
      rcases List.mem_append.mp hmem with hold | hnew
      · exact h other hold
      · rw [Option.some.inj (List.mem_singleton.mp hnew)]
        exact haccept request program hprogram
    · cases hstep
  · simp only [step] at hstep
    split at hstep
    · rename_i op next htask
      have hwithin := h (.call op next) (List.mem_of_getElem? htask)
      cases hstep
      refine ⟨confined_set h ?_ _, .inr ⟨i, choice, op, rfl, hwithin.1, rfl⟩⟩
      intro program hprogram
      obtain ⟨answer, -, rfl⟩ := Option.map_eq_some_iff.mp hprogram
      exact hwithin.2 answer
    · cases hstep
    · cases hstep
    · cases hstep
  · simp only [step] at hstep
    split at hstep
    · cases hstep
      exact ⟨confined_set h (by simp) _, .inl rfl⟩
    · cases hstep
    · cases hstep

/-- **Confinement.**  Every step of a run is a call in `P` or leaves the state alone. -/
theorem carried_of_run
    (haccept : ∀ request program, m.accept request = some program → program.Within P)
    (h : Confined P pool) {labels : List (Label ρ χ)}
    (hrun : run (step m) pool labels = some pool') :
    AllSteps (step m) (fun before label => ∀ after, step m before label = some after →
      Carried m P before.state after.state label) pool labels := by
  have hconfined : ∀ (s : Pool Ans σ) label t, Confined P s → step m s label = some t →
      Confined P t := by
    intro s label t hs hst
    exact (step_spec haccept hs hst).1
  refine allSteps_of_run hconfined ?_ h hrun
  intro s label t hs _ after hafter
  exact (step_spec haccept hs hafter).2

/-- **Frame rule.**  A preorder that every call in `P` keeps, with the choices that meet
    `ok`, relates the first state of a run to the last. -/
theorem related_of_run {R : σ → σ → Prop} (hrefl : ∀ s, R s s)
    (htrans : ∀ s t u, R s t → R t u → R s u) {ok : χ → Prop}
    (hperform : ∀ s op choice, P op → ok choice → R s (m.perform s op choice).1)
    (haccept : ∀ request program, m.accept request = some program → program.Within P)
    (h : Confined P pool) {labels : List (Label ρ χ)}
    (hok : ∀ i choice, .advance i choice ∈ labels → ok choice)
    (hrun : run (step m) pool labels = some pool') : R pool.state pool'.state := by
  have hallowed : AllSteps (step m)
      (fun _ label => ∀ i choice, label = Label.advance i choice → ok choice) pool labels := by
    apply allSteps_of_forall
    rintro label hmem i choice rfl
    exact hok i choice hmem
  have hkeeps : ∀ s label t, (Confined P s ∧ R pool.state s.state) →
      (∀ i choice, label = Label.advance i choice → ok choice) → step m s label = some t →
        Confined P t ∧ R pool.state t.state := by
    rintro s label t ⟨hs, hrel⟩ hlabel hst
    obtain ⟨hconfined, hsame | ⟨i, choice, op, rfl, hP, heq⟩⟩ := step_spec haccept hs hst
    · exact ⟨hconfined, hsame ▸ hrel⟩
    · refine ⟨hconfined, htrans _ _ _ hrel ?_⟩
      rw [heq]
      exact hperform s.state op choice hP (hlabel i choice rfl)
  exact (invariant_of_allSteps hkeeps ⟨h, hrefl _⟩ hallowed hrun).2

/-! ## Counting calls -/

/-- What the programs of a pool may still do, one bound for each. -/
def Bounded (counts : Op → Bool) (tasks : List (Option (Tree Ans Unit))) (bounds : List Nat) :
    Prop :=
  List.Forall₂ (fun task bound => ∀ program, task = some program → program.AtMost counts bound)
    tasks bounds

/-- What the requests of a run may cost. -/
def costOf (cost : ρ → Nat) : List (Label ρ χ) → Nat
  | [] => 0
  | .start request :: rest => cost request + costOf cost rest
  | .advance _ _ :: rest | .drop _ :: rest => costOf cost rest

/-- What is spent at `i` comes off the sum. -/
theorem sum_set_add {bounds : List Nat} {i bound spent : Nat} (hbound : bounds[i]? = some bound)
    (hspent : spent ≤ bound) : (bounds.set i (bound - spent)).sum + spent = bounds.sum := by
  induction bounds generalizing i with
  | nil => cases hbound
  | cons first rest ih =>
      rcases i with _ | i
      · obtain rfl : first = bound := by simpa using hbound
        simp only [List.set_cons_zero, List.sum_cons]
        omega
      · have hrest := ih (i := i) (by simpa using hbound)
        simp only [List.set_cons_succ, List.sum_cons]
        omega

/-- A program goes on with what is left of its bound. -/
theorem Bounded.spend {counts : Op → Bool} {tasks : List (Option (Tree Ans Unit))}
    {bounds : List Nat} (h : Bounded counts tasks bounds) {i spent : Nat} {program : Tree Ans Unit}
    (hprogram : tasks[i]? = some (some program)) {task : Option (Tree Ans Unit)}
    (htask : ∀ n, program.AtMost counts n → spent ≤ n ∧
      ∀ program', task = some program' → program'.AtMost counts (n - spent)) :
    ∃ bounds', Bounded counts (tasks.set i task) bounds' ∧ bounds'.sum + spent = bounds.sum := by
  have hset : ∃ bound, bounds[i]? = some bound ∧ spent ≤ bound ∧
      Bounded counts (tasks.set i task) (bounds.set i (bound - spent)) := by
    induction h generalizing i with
    | nil => cases hprogram
    | @cons first bound _ _ hfirst hrest ih =>
        rcases i with _ | i
        · obtain ⟨hspent, hafter⟩ := htask bound (hfirst program (by simpa using hprogram))
          exact ⟨bound, rfl, hspent, List.Forall₂.cons hafter hrest⟩
        · obtain ⟨bound', hbound, hspent, hset⟩ := ih (i := i) (by simpa using hprogram)
          exact ⟨bound', by simpa using hbound, hspent, List.Forall₂.cons hfirst hset⟩
  obtain ⟨bound, hbound, hspent, hset⟩ := hset
  exact ⟨_, hset, sum_set_add hbound hspent⟩

theorem Bounded.concat {counts : Op → Bool} {tasks : List (Option (Tree Ans Unit))}
    {bounds : List Nat} (h : Bounded counts tasks bounds) {program : Tree Ans Unit} {bound : Nat}
    (hprogram : program.AtMost counts bound) :
    Bounded counts (tasks ++ [some program]) (bounds ++ [bound]) := by
  induction h with
  | nil =>
      refine List.Forall₂.cons ?_ List.Forall₂.nil
      intro other hother
      exact Option.some.inj hother ▸ hprogram
  | cons hfirst _ ih => exact List.Forall₂.cons hfirst ih

/-- **Budget rule.**  A weight that only counted calls raise, by one each, is paid for by
    the requests that were admitted. -/
theorem weight_le_cost {counts : Op → Bool} {cost : ρ → Nat} {weight : σ → Nat}
    (haccept : ∀ request program, m.accept request = some program →
      program.AtMost counts (cost request))
    (hperform : ∀ s op choice, weight (m.perform s op choice).1 ≤ weight s + (counts op).toNat)
    {labels : List (Label ρ χ)} {bounds : List Nat} (hbounds : Bounded counts pool.tasks bounds)
    (hrun : run (step m) pool labels = some pool') :
    weight pool'.state ≤ weight pool.state + bounds.sum + costOf cost labels := by
  induction labels generalizing pool bounds with
  | nil =>
      cases hrun
      simp only [costOf]
      omega
  | cons label rest ih =>
      obtain ⟨mid, hstep, hrest⟩ := (run_cons_eq_some _).mp hrun
      rcases label with request | ⟨i, choice⟩ | i
      · simp only [step] at hstep
        split at hstep
        · rename_i program hprogram
          cases hstep
          have hpaid := ih (hbounds.concat (haccept request program hprogram)) hrest
          simp only [List.sum_append, List.sum_cons, List.sum_nil] at hpaid
          simp only [costOf]
          omega
        · cases hstep
      · simp only [step] at hstep
        split at hstep
        · rename_i op next htask
          cases hstep
          have hspend : ∃ bounds', Bounded counts
              (pool.tasks.set i ((m.perform pool.state op choice).2.map next)) bounds' ∧
                bounds'.sum + (counts op).toNat = bounds.sum := by
            refine hbounds.spend htask ?_
            rintro n ⟨hspent, hafter⟩
            refine ⟨hspent, ?_⟩
            intro program hprogram
            obtain ⟨answer, -, rfl⟩ := Option.map_eq_some_iff.mp hprogram
            exact hafter answer
          obtain ⟨bounds', hbounds', hsum⟩ := hspend
          have hpaid : weight pool'.state ≤ weight (m.perform pool.state op choice).1 +
              bounds'.sum + costOf cost rest := ih hbounds' hrest
          have hone := hperform pool.state op choice
          simp only [costOf]
          omega
        · cases hstep
        · cases hstep
        · cases hstep
      · simp only [step] at hstep
        split at hstep
        · rename_i program htask
          cases hstep
          have hspend : ∃ bounds', Bounded counts (pool.tasks.set i none) bounds' ∧
              bounds'.sum + 0 = bounds.sum :=
            hbounds.spend htask fun n _ => ⟨Nat.zero_le n, nofun⟩
          obtain ⟨bounds', hbounds', hsum⟩ := hspend
          have hpaid := ih hbounds' hrest
          simp only [costOf] at hpaid ⊢
          omega
        · cases hstep
        · cases hstep

end RustyImap.CallTrees
