import Mathlib

/-!
# Lines

A text as the list of its lines: what stands between its separators, without an
empty rest behind the last one. A reader that takes one line at a time finds these
lines, and fails where they end.
-/

namespace FileTransfer.Lines

variable {α : Type} [DecidableEq α] (sep : α)

/-- The first line, and what is behind its separator. -/
def nextLine (s : List α) : List α × List α :=
  (s.takeWhile (· ≠ sep), (s.dropWhile (· ≠ sep)).drop 1)

/-- The lines of a text. -/
def lines (s : List α) : List (List α) :=
  if (s.splitOn sep).getLast? = some [] then (s.splitOn sep).dropLast else s.splitOn sep

variable {sep}

/-! ## One line -/

/-- Nothing of such a line ends the scan. -/
theorem ne_of_notMem {l : List α} (h : sep ∉ l) : ∀ x ∈ l, decide (x ≠ sep) = true := by
  intro x hx
  apply decide_eq_true
  intro heq
  exact h (heq ▸ hx)

theorem nextLine_append {l : List α} (h : sep ∉ l) (rest : List α) :
    nextLine sep (l ++ sep :: rest) = (l, rest) := by
  have hline := ne_of_notMem h
  rw [nextLine, List.takeWhile_append_of_pos hline, List.dropWhile_append_of_pos hline]
  simp

theorem nextLine_of_notMem {l : List α} (h : sep ∉ l) : nextLine sep l = (l, []) := by
  have hline := ne_of_notMem h
  rw [nextLine, List.takeWhile_eq_self_iff.mpr hline, List.dropWhile_eq_nil_iff.mpr hline]
  rfl

theorem notMem_nextLine (s : List α) : sep ∉ (nextLine sep s).1 := by
  intro h
  simpa using List.mem_takeWhile_imp h

/-- A text is one line, or a line and a separator in front of the rest. -/
theorem eq_nextLine (s : List α) :
    s = (nextLine sep s).1 ∨ s = (nextLine sep s).1 ++ sep :: (nextLine sep s).2 := by
  have hsplit := List.takeWhile_append_dropWhile (p := (· ≠ sep)) (l := s)
  rcases hrest : s.dropWhile (· ≠ sep) with _ | ⟨x, rest⟩
  · left
    rw [hrest, List.append_nil] at hsplit
    exact hsplit.symm
  · right
    have hhead : x = sep := by
      have hnot := List.head_dropWhile_not (· ≠ sep) (l := s) (by rw [hrest]; simp)
      simp only [hrest, List.head_cons] at hnot
      simpa using hnot
    subst hhead
    simp only [nextLine, hrest, List.drop_one, List.tail_cons]
    rw [hrest] at hsplit
    exact hsplit.symm

/-! ## All lines -/

@[simp] theorem lines_nil : lines sep [] = [] := by simp [lines]

theorem lines_of_notMem {l : List α} (h : sep ∉ l) (hne : l ≠ []) : lines sep l = [l] := by
  simp [lines, List.splitOn_eq_singleton h, hne]

theorem lines_append {l : List α} (h : sep ∉ l) (rest : List α) :
    lines sep (l ++ sep :: rest) = l :: lines sep rest := by
  have hne : rest.splitOn sep ≠ [] := List.splitOn_ne_nil sep rest
  have hlast : (l :: rest.splitOn sep).getLast? = (rest.splitOn sep).getLast? := by
    rw [List.getLast?_eq_some_getLast hne, List.getLast?_eq_some_getLast (List.cons_ne_nil _ _),
      List.getLast_cons hne]
  rw [lines, List.splitOn_append_cons_self_of_not_mem h, hlast, List.dropLast_cons_of_ne_nil hne,
    lines]
  split <;> rfl

/-- **A reader of lines** gets them one after another. -/
theorem lines_of_ne_nil {s : List α} (h : s ≠ []) :
    lines sep s = (nextLine sep s).1 :: lines sep (nextLine sep s).2 := by
  have hfree := @notMem_nextLine _ _ sep s
  rcases @eq_nextLine _ _ sep s with hlast | hmore
  · rw [← hlast] at hfree
    rw [nextLine_of_notMem hfree, lines_nil]
    exact lines_of_notMem hfree h
  · have hlines := lines_append hfree (nextLine sep s).2
    rw [← hmore] at hlines
    exact hlines

theorem lines_eq_cons {s l : List α} {ls : List (List α)} : lines sep s = l :: ls ↔
    s ≠ [] ∧ (nextLine sep s).1 = l ∧ lines sep (nextLine sep s).2 = ls := by
  constructor
  · intro h
    have hne : s ≠ [] := by
      intro hnil
      rw [hnil, lines_nil] at h
      cases h
    rw [lines_of_ne_nil hne] at h
    obtain ⟨hline, hrest⟩ := List.cons.inj h
    exact ⟨hne, hline, hrest⟩
  · intro h
    obtain ⟨hne, hline, hrest⟩ := h
    rw [lines_of_ne_nil hne, hline, hrest]

end FileTransfer.Lines
