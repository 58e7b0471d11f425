import Mathlib

/-!
# A queue of time stamps that follows a sliding window

Stamps are pushed at the back of a queue and pruned from its front as long as
they lie before a cutoff.  Pruning is lazy: it happens only at some of the
moments at which the cutoff moves, so at any time the queue is the history seen
through *some* cutoff of the past.  `Tracks history bound queue` is that
relation, with an upper bound for the cutoff, and the rules below carry it over
a push, a prune and the passing of time.  `Tracks.filter_eq` is what a reader of
the queue needs: behind any later cutoff the lazy queue and the history agree.
-/

namespace RustyImap.SlidingWindow

variable {τ : Type*} [LinearOrder τ]

/-- Pruning the front of a sorted queue is filtering it. -/
theorem dropWhile_lt_eq_filter {queue : List τ} (hsorted : queue.Pairwise (· ≤ ·))
    (cutoff : τ) :
    queue.dropWhile (fun t => decide (t < cutoff)) =
      queue.filter (fun t => decide (cutoff ≤ t)) := by
  induction queue with
  | nil => rfl
  | cons t queue ih =>
      obtain ⟨hfirst, hrest⟩ := List.pairwise_cons.mp hsorted
      by_cases ht : t < cutoff
      · rw [List.dropWhile_cons_of_pos (by simpa using ht), ih hrest,
          List.filter_cons_of_neg (by simpa using ht)]
      · have hkeep : ∀ u ∈ t :: queue, decide (cutoff ≤ u) = true := by
          intro u hu
          rcases List.mem_cons.mp hu with rfl | hu
          · simpa using not_lt.mp ht
          · simpa using le_trans (not_lt.mp ht) (hfirst u hu)
        rw [List.dropWhile_cons_of_neg (by simpa using ht), List.filter_eq_self.mpr hkeep]

/-- The earlier of two cutoffs does not matter. -/
theorem filter_le_filter_le {early late : τ} (hle : early ≤ late) (history : List τ) :
    (history.filter fun t => decide (early ≤ t)).filter (fun t => decide (late ≤ t)) =
      history.filter fun t => decide (late ≤ t) := by
  rw [List.filter_filter]
  refine List.filter_congr fun t _ => ?_
  have hlate : late ≤ t → early ≤ t := fun h => le_trans hle h
  by_cases ht : late ≤ t
  · simp [ht, hlate ht]
  · simp [ht]

/-- The queue is the sorted history seen through a cutoff that is at most `bound`. -/
structure Tracks (history : List τ) (bound : τ) (queue : List τ) : Prop where
  sorted : history.Pairwise (· ≤ ·)
  cut : ∃ cutoff ≤ bound, queue = history.filter fun t => decide (cutoff ≤ t)

namespace Tracks

variable {history queue : List τ} {bound bound' : τ}

theorem nil (bound : τ) : Tracks [] bound [] :=
  ⟨List.Pairwise.nil, bound, le_rfl, rfl⟩

/-- Time passes. -/
theorem mono (h : Tracks history bound queue) (hle : bound ≤ bound') :
    Tracks history bound' queue := by
  obtain ⟨cutoff, hcutoff, hqueue⟩ := h.cut
  exact ⟨h.sorted, cutoff, le_trans hcutoff hle, hqueue⟩

theorem queue_sorted (h : Tracks history bound queue) : queue.Pairwise (· ≤ ·) := by
  obtain ⟨cutoff, -, hqueue⟩ := h.cut
  rw [hqueue]
  exact h.sorted.filter _

/-- Behind the bound the queue holds exactly the stamps of the history. -/
theorem filter_eq (h : Tracks history bound queue) (hle : bound ≤ bound') :
    queue.filter (fun t => decide (bound' ≤ t)) =
      history.filter fun t => decide (bound' ≤ t) := by
  obtain ⟨cutoff, hcutoff, hqueue⟩ := h.cut
  rw [hqueue]
  exact filter_le_filter_le (le_trans hcutoff hle) history

/-- After a prune the queue is the history inside the window. -/
theorem dropWhile_eq (h : Tracks history bound queue) (hle : bound ≤ bound') :
    queue.dropWhile (fun t => decide (t < bound')) =
      history.filter fun t => decide (bound' ≤ t) := by
  rw [dropWhile_lt_eq_filter h.queue_sorted, h.filter_eq hle]

theorem prune (h : Tracks history bound queue) (hle : bound ≤ bound') :
    Tracks history bound' (queue.dropWhile fun t => decide (t < bound')) :=
  ⟨h.sorted, bound', le_rfl, h.dropWhile_eq hle⟩

/-- A stamp that is no earlier than the history and lies behind the bound. -/
theorem push (h : Tracks history bound queue) {t : τ} (hlast : ∀ u ∈ history, u ≤ t)
    (ht : bound ≤ t) : Tracks (history ++ [t]) bound (queue ++ [t]) := by
  obtain ⟨cutoff, hcutoff, hqueue⟩ := h.cut
  refine ⟨?_, cutoff, hcutoff, ?_⟩
  · refine List.pairwise_append.mpr ⟨h.sorted, List.pairwise_singleton _ _, ?_⟩
    intro u hu v hv
    rw [List.mem_singleton.mp hv]
    exact hlast u hu
  · have hkeep : cutoff ≤ t := le_trans hcutoff ht
    rw [List.filter_append, ← hqueue]
    simp [hkeep]

end Tracks

end RustyImap.SlidingWindow
