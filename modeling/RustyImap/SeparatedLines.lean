import Mathlib.Data.List.Basic

/-!
# Lines of a sequence with a separator

A sequence over any alphabet, cut after every occurrence of a separator `sep`.
A line keeps its separator; only the last one may lack it.  `splitKeep` is the
cut, `IsLine` a terminated line, and a sequence of terminated lines is recovered
from its concatenation, with whatever follows cut separately.
-/

namespace RustyImap.SeparatedLines

variable {α : Type*} [DecidableEq α] (sep : α)

/-- Cut after every separator. -/
def splitKeep : List α → List (List α)
  | [] => []
  | b :: rest =>
      if b = sep then [b] :: splitKeep rest
      else
        match splitKeep rest with
        | [] => [[b]]
        | line :: lines => (b :: line) :: lines

/-- A terminated line. -/
def IsLine (line : List α) : Prop := ∃ body, sep ∉ body ∧ line = body ++ [sep]

variable {sep}

@[simp] theorem splitKeep_nil : splitKeep sep [] = [] := rfl

theorem splitKeep_cons_of_ne {b : α} (h : b ≠ sep) {rest : List α} :
    splitKeep sep (b :: rest) =
      match splitKeep sep rest with
      | [] => [[b]]
      | line :: lines => (b :: line) :: lines := by
  simp [splitKeep, h]

/-- Nothing is lost by cutting. -/
@[simp] theorem flatten_splitKeep (s : List α) : (splitKeep sep s).flatten = s := by
  induction s with
  | nil => rfl
  | cons b rest ih =>
      by_cases h : b = sep
      · simp [splitKeep, h, ih]
      · rw [splitKeep_cons_of_ne h]
        cases hrest : splitKeep sep rest with
        | nil =>
            rw [hrest] at ih
            simpa using ih
        | cons line lines =>
            rw [hrest] at ih
            simpa using ih

/-- A terminated line in front is the first line. -/
theorem splitKeep_line_append {line : List α} (h : IsLine sep line) (s : List α) :
    splitKeep sep (line ++ s) = line :: splitKeep sep s := by
  obtain ⟨body, hbody, rfl⟩ := h
  induction body with
  | nil => simp [splitKeep]
  | cons b body ih =>
      have hb : b ≠ sep := fun heq => hbody (by simp [heq])
      have hrest : sep ∉ body := fun hmem => hbody (by simp [hmem])
      rw [List.cons_append, List.cons_append, splitKeep_cons_of_ne hb, ih hrest]

/-- **Terminated lines are recovered from their concatenation.** -/
theorem splitKeep_flatten_append {lines : List (List α)} (h : ∀ line ∈ lines, IsLine sep line)
    (s : List α) : splitKeep sep (lines.flatten ++ s) = lines ++ splitKeep sep s := by
  induction lines with
  | nil => rfl
  | cons line lines ih =>
      have hline := h line (by simp)
      have hlines := ih fun l hl => h l (by simp [hl])
      rw [List.flatten_cons, List.append_assoc, splitKeep_line_append hline, hlines]
      rfl

theorem splitKeep_flatten {lines : List (List α)} (h : ∀ line ∈ lines, IsLine sep line) :
    splitKeep sep lines.flatten = lines := by
  have hsplit := splitKeep_flatten_append h []
  simpa using hsplit

/-- A non-empty sequence without separator is one unterminated line. -/
theorem splitKeep_of_not_mem {s : List α} (hs : s ≠ []) (h : sep ∉ s) :
    splitKeep sep s = [s] := by
  induction s with
  | nil => exact absurd rfl hs
  | cons b rest ih =>
      have hb : b ≠ sep := fun heq => h (by simp [heq])
      have hrest : sep ∉ rest := fun hmem => h (by simp [hmem])
      rw [splitKeep_cons_of_ne hb]
      cases rest with
      | nil => rfl
      | cons c rest => rw [ih (List.cons_ne_nil c rest) hrest]

/-- Every sequence is a block of terminated lines and a tail without separator. -/
theorem exists_lines_tail (sep : α) (s : List α) :
    ∃ lines tail, (∀ line ∈ lines, IsLine sep line) ∧ sep ∉ tail ∧
      s = List.flatten lines ++ tail := by
  induction s with
  | nil => exact ⟨[], [], by simp, by simp, rfl⟩
  | cons b rest ih =>
      obtain ⟨lines, tail, hlines, htail, rfl⟩ := ih
      by_cases hb : b = sep
      · subst hb
        refine ⟨[b] :: lines, tail, ?_, htail, rfl⟩
        intro line hmem
        rcases List.mem_cons.mp hmem with rfl | hmem
        · exact ⟨[], by simp, rfl⟩
        · exact hlines line hmem
      · cases lines with
        | nil =>
            refine ⟨[], b :: tail, by simp, ?_, rfl⟩
            intro hmem
            rcases List.mem_cons.mp hmem with heq | hmem
            · exact hb heq.symm
            · exact htail hmem
        | cons line lines =>
            obtain ⟨body, hbody, rfl⟩ := hlines line (by simp)
            refine ⟨((b :: body) ++ [sep]) :: lines, tail, ?_, htail, rfl⟩
            intro line hmem
            rcases List.mem_cons.mp hmem with rfl | hmem
            · refine ⟨b :: body, ?_, rfl⟩
              intro hsep
              rcases List.mem_cons.mp hsep with heq | hsep
              · exact hb heq.symm
              · exact hbody hsep
            · exact hlines line (by simp [hmem])

/-! ## Complete lines of a sequence with an unfinished tail -/

variable (sep) in
/-- The terminated lines of a sequence; an unfinished last line is left out. -/
def terminated (s : List α) : List (List α) :=
  (splitKeep sep s).filter fun line => line.getLast? = some sep

@[simp] theorem terminated_nil : terminated sep [] = [] := rfl

theorem terminated_of_not_mem {tail : List α} (h : sep ∉ tail) : terminated sep tail = [] := by
  by_cases hnil : tail = []
  · rw [hnil, terminated_nil]
  · rw [terminated, splitKeep_of_not_mem hnil h]
    have hlast : tail.getLast? ≠ some sep := by
      intro hlast
      exact h (List.mem_of_getLast? hlast)
    simp [hlast]

/-- **The terminated lines in front of a sequence come first.** -/
theorem terminated_flatten_append {lines : List (List α)}
    (h : ∀ line ∈ lines, IsLine sep line) (s : List α) :
    terminated sep (lines.flatten ++ s) = lines ++ terminated sep s := by
  rw [terminated, splitKeep_flatten_append h, List.filter_append]
  congr 1
  rw [List.filter_eq_self]
  intro line hline
  obtain ⟨body, -, rfl⟩ := h line hline
  simp

theorem terminated_flatten_tail {lines : List (List α)} (h : ∀ line ∈ lines, IsLine sep line)
    {tail : List α} (htail : sep ∉ tail) : terminated sep (lines.flatten ++ tail) = lines := by
  rw [terminated_flatten_append h, terminated_of_not_mem htail, List.append_nil]

theorem terminated_flatten {lines : List (List α)} (h : ∀ line ∈ lines, IsLine sep line) :
    terminated sep lines.flatten = lines := by
  have hterminated := terminated_flatten_append h []
  simpa using hterminated

theorem terminated_line {line : List α} (h : IsLine sep line) : terminated sep line = [line] := by
  have hlines : ∀ l ∈ [line], IsLine sep l := by simpa using h
  simpa using terminated_flatten hlines

omit [DecidableEq α] in
theorem lines_eq_nil_of_not_mem {lines : List (List α)} (h : ∀ line ∈ lines, IsLine sep line)
    (hsep : sep ∉ lines.flatten) : lines = [] := by
  cases lines with
  | nil => rfl
  | cons line lines =>
      obtain ⟨body, -, rfl⟩ := h line (by simp)
      exact absurd (by simp) hsep

/-- Where lines are cut anywhere, a block of them lies whole before the cut and the
    tail before the cut is completed behind it. -/
theorem exists_cut {lines : List (List α)} (h : ∀ line ∈ lines, IsLine sep line)
    {s t : List α} (hcut : s ++ t = lines.flatten) :
    ∃ done rest tail, lines = done ++ rest ∧ s = done.flatten ++ tail ∧ sep ∉ tail ∧
      tail ++ t = rest.flatten := by
  obtain ⟨done, tail, hdone, htail, rfl⟩ := exists_lines_tail sep s
  have hsplit : splitKeep sep lines.flatten = done ++ splitKeep sep (tail ++ t) := by
    rw [← hcut, List.append_assoc, splitKeep_flatten_append hdone]
  rw [splitKeep_flatten h] at hsplit
  exact ⟨done, splitKeep sep (tail ++ t), tail, hsplit, rfl, htail, by simp⟩

end RustyImap.SeparatedLines
