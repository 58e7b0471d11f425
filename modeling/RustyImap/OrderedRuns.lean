import Mathlib.Data.List.Pairwise
import Mathlib.Order.SuccPred.Basic

/-!
# Runs of consecutive elements

A strictly increasing list cut into its runs.  `Run` is a non-empty interval with
both ends, `Separated` says that between two runs at least one element is missing,
and `Scan` is the left-to-right cut that lets the last run grow.  A set of elements
is covered by one separated list of runs at most.
-/

namespace RustyImap.OrderedRuns

structure Run (α : Type*) [LE α] where
  start : α
  stop : α
  start_le : start ≤ stop

namespace Run

variable {α : Type*} [LinearOrder α]

theorem ext_ends {r s : Run α} (hstart : r.start = s.start) (hstop : r.stop = s.stop) : r = s := by
  cases r
  cases s
  congr

def single (a : α) : Run α := ⟨a, a, le_rfl⟩

def Contains (r : Run α) (a : α) : Prop := r.start ≤ a ∧ a ≤ r.stop

/-- Neither overlapping nor adjacent. -/
def Before [SuccOrder α] (r s : Run α) : Prop := Order.succ r.stop < s.start

end Run

section Covers

variable {α : Type*} [LinearOrder α]

def Covers (runs : List (Run α)) (a : α) : Prop := ∃ r ∈ runs, r.Contains a

@[simp] theorem covers_nil (a : α) : ¬Covers [] a := by
  simp [Covers]

theorem covers_cons {r : Run α} {runs : List (Run α)} {a : α} :
    Covers (r :: runs) a ↔ r.Contains a ∨ Covers runs a := by
  simp [Covers]

theorem covers_concat {r : Run α} {runs : List (Run α)} {a : α} :
    Covers (runs ++ [r]) a ↔ Covers runs a ∨ r.Contains a := by
  simp [Covers, or_and_right, exists_or]

end Covers

section Order

variable {α : Type*} [LinearOrder α] [SuccOrder α]

def Separated (runs : List (Run α)) : Prop := runs.Pairwise Run.Before

/-! ## One separated list for a set -/

theorem succ_stop_lt_of_covers {r : Run α} {runs : List (Run α)} (h : Separated (r :: runs))
    {a : α} (ha : Covers runs a) : Order.succ r.stop < a := by
  obtain ⟨s, hs, hstart, _⟩ := ha
  have hbefore : r.Before s := List.rel_of_pairwise_cons h hs
  exact lt_of_lt_of_le hbefore hstart

theorem start_le_of_covers {r : Run α} {runs : List (Run α)} (h : Separated (r :: runs)) {a : α}
    (ha : Covers (r :: runs) a) : r.start ≤ a := by
  rcases covers_cons.mp ha with hr | hruns
  · exact hr.1
  · have hlt := succ_stop_lt_of_covers h hruns
    exact (r.start_le.trans (Order.le_succ r.stop)).trans hlt.le

/-- Behind the end of a run the next element is missing. -/
theorem stop_le_of_covers {r s : Run α} {runs others : List (Run α)} (h : Separated (r :: runs))
    (hcover : ∀ a, Covers (s :: others) a → Covers (r :: runs) a) (hstart : r.start = s.start) :
    s.stop ≤ r.stop := by
  by_contra hlt
  rw [not_le] at hlt
  have hnext : Covers (s :: others) (Order.succ r.stop) := by
    refine covers_cons.mpr (.inl ⟨?_, Order.succ_le_of_lt hlt⟩)
    rw [← hstart]
    exact r.start_le.trans (Order.le_succ r.stop)
  rcases covers_cons.mp (hcover _ hnext) with hr | hruns
  · have hmax : IsMax r.stop := Order.succ_le_iff_isMax.mp hr.2
    exact hmax.not_lt hlt
  · exact absurd (succ_stop_lt_of_covers h hruns) (lt_irrefl _)

theorem covers_tail_iff {r : Run α} {runs : List (Run α)} (h : Separated (r :: runs)) {a : α} :
    Covers runs a ↔ Covers (r :: runs) a ∧ r.stop < a := by
  constructor
  · intro ha
    have hlt := succ_stop_lt_of_covers h ha
    exact ⟨covers_cons.mpr (.inr ha), lt_of_le_of_lt (Order.le_succ r.stop) hlt⟩
  · rintro ⟨ha, hlt⟩
    rcases covers_cons.mp ha with hr | hruns
    · exact absurd hr.2 (not_le.mpr hlt)
    · exact hruns

/-- **Separated runs that cover the same elements are the same runs.** -/
theorem Separated.eq_of_covers {runs others : List (Run α)} (hruns : Separated runs)
    (hothers : Separated others) (h : ∀ a, Covers runs a ↔ Covers others a) : runs = others := by
  induction runs generalizing others with
  | nil =>
      cases others with
      | nil => rfl
      | cons s others =>
          have hs : Covers (s :: others) s.start :=
            covers_cons.mpr (.inl ⟨le_rfl, s.start_le⟩)
          exact absurd ((h _).mpr hs) (covers_nil _)
  | cons r runs ih =>
      have hr : Covers (r :: runs) r.start := covers_cons.mpr (.inl ⟨le_rfl, r.start_le⟩)
      cases others with
      | nil => exact absurd ((h _).mp hr) (covers_nil _)
      | cons s others =>
          have hs : Covers (s :: others) s.start :=
            covers_cons.mpr (.inl ⟨le_rfl, s.start_le⟩)
          have hstart : r.start = s.start :=
            le_antisymm (start_le_of_covers hruns ((h _).mpr hs))
              (start_le_of_covers hothers ((h _).mp hr))
          have hstop : r.stop = s.stop :=
            le_antisymm (stop_le_of_covers hothers (fun a => (h a).mp) hstart.symm)
              (stop_le_of_covers hruns (fun a => (h a).mpr) hstart)
          obtain rfl : r = s := Run.ext_ends hstart hstop
          have htail : ∀ a, Covers runs a ↔ Covers others a := by
            intro a
            rw [covers_tail_iff hruns, covers_tail_iff hothers, h a]
          rw [ih hruns.of_cons hothers.of_cons htail]

/-! ## The cut -/

/-- The runs that are complete, and the one that may still grow. -/
structure Scan (α : Type*) [LE α] where
  closed : List (Run α)
  current : Run α

namespace Scan

def runs (s : Scan α) : List (Run α) := s.closed ++ [s.current]

def start (first : α) : Scan α := ⟨[], .single first⟩

def step (s : Scan α) (a : α) : Scan α :=
  if h : Order.succ s.current.stop = a then
    ⟨s.closed, ⟨s.current.start, a, h ▸ s.current.start_le.trans (Order.le_succ _)⟩⟩
  else ⟨s.closed ++ [s.current], .single a⟩

/-- After the elements `seen`: separated runs that cover them. -/
structure Cut (s : Scan α) (seen : α → Prop) : Prop where
  separated : Separated s.runs
  covers : ∀ a, Covers s.runs a ↔ seen a

theorem cut_start (first : α) : (start first).Cut (· = first) where
  separated := List.pairwise_singleton _ _
  covers a := by
    simp only [runs, start, List.nil_append, covers_cons, covers_nil, or_false]
    exact ⟨fun h => le_antisymm h.2 h.1, fun h => ⟨h.ge, h.le⟩⟩

theorem Cut.step {s : Scan α} {seen : α → Prop} (h : s.Cut seen) {a : α}
    (ha : s.current.stop < a) : (s.step a).Cut fun b => seen b ∨ b = a := by
  have hpair := List.pairwise_append.mp h.separated
  have hclosed : ∀ r ∈ s.closed, Order.succ r.stop < s.current.start := by
    intro r hr
    exact hpair.2.2 r hr s.current (by simp)
  unfold Scan.step
  split
  · next hnext =>
    constructor
    · -- only the end of the last run has moved
      refine List.pairwise_append.mpr ⟨hpair.1, List.pairwise_singleton _ _, ?_⟩
      intro r hr t ht
      obtain rfl := List.mem_singleton.mp ht
      exact hclosed r hr
    · intro b
      have hle : s.current.start ≤ a := s.current.start_le.trans ha.le
      rw [← h.covers, runs, runs, covers_concat, covers_concat, or_assoc]
      refine or_congr_right ?_
      change s.current.start ≤ b ∧ b ≤ a ↔ (s.current.start ≤ b ∧ b ≤ s.current.stop) ∨ b = a
      rw [← hnext, Order.le_succ_iff_eq_or_le, hnext]
      constructor
      · rintro ⟨hstart, hb | hb⟩
        · exact .inr hb
        · exact .inl ⟨hstart, hb⟩
      · rintro (⟨hstart, hb⟩ | hb)
        · exact ⟨hstart, .inr hb⟩
        · exact ⟨hb ▸ hle, .inl hb⟩
  · next hgap =>
    have hlt : Order.succ s.current.stop < a :=
      lt_of_le_of_ne (Order.succ_le_of_lt ha) hgap
    constructor
    · refine List.pairwise_append.mpr ⟨h.separated, List.pairwise_singleton _ _, ?_⟩
      intro r hr t ht
      obtain rfl := List.mem_singleton.mp ht
      rcases List.mem_append.mp hr with hr | hr
      · exact (hclosed r hr).trans_le (s.current.start_le.trans ha.le)
      · obtain rfl := List.mem_singleton.mp hr
        exact hlt
    · intro b
      rw [← h.covers, runs, covers_concat]
      refine or_congr_right ?_
      exact ⟨fun hb => le_antisymm hb.2 hb.1, fun hb => ⟨hb.ge, hb.le⟩⟩

theorem stop_step (s : Scan α) (a : α) : (s.step a).current.stop = a := by
  unfold Scan.step
  split <;> rfl

theorem Cut.foldl {rest : List α} {s : Scan α} {seen : α → Prop} (h : s.Cut seen)
    (hrest : (s.current.stop :: rest).Pairwise (· < ·)) :
    (rest.foldl Scan.step s).Cut fun b => seen b ∨ b ∈ rest := by
  induction rest generalizing s seen with
  | nil => simpa using h
  | cons a rest ih =>
      have ha : s.current.stop < a := List.rel_of_pairwise_cons hrest (by simp)
      have hstep := ih (h.step ha) (by rw [stop_step]; exact hrest.of_cons)
      simpa only [List.foldl_cons, List.mem_cons, or_assoc] using hstep

end Scan

/-- **A strictly increasing list is cut into separated runs of its elements.** -/
theorem cut_foldl {first : α} {rest : List α} (h : (first :: rest).Pairwise (· < ·)) :
    (rest.foldl Scan.step (.start first)).Cut (· ∈ first :: rest) := by
  have hcut := (Scan.cut_start first).foldl h
  simpa only [List.mem_cons] using hcut

end Order

end RustyImap.OrderedRuns
