import Mathlib
import PatchSynth.Text.Lines

/-!
This module contains where the lines of a text stand in it: what ends in a line feed can be put
before another text without touching its lines, and so many lines stand above a line as there are
line feeds before it.
-/

namespace PatchSynth

def EndsLines (text : List Char) : Prop :=
  text = [] ∨ text.getLast? = some '\n'

variable {text front back line : List Char} {above below : List (List Char)}

theorem EndsLines.exists_eq (h : EndsLines front) (hne : front ≠ []) :
    ∃ start, front = start ++ ['\n'] := by
  obtain hnil | hlast := h
  · exact absurd hnil hne
  · exact List.getLast?_eq_some_iff.1 hlast

theorem EndsLines.append (h : EndsLines front) (start : List Char) :
    EndsLines (start ++ ['\n'] ++ front) := by
  apply Or.inr
  by_cases hne : front = []
  · simp [hne]
  · obtain ⟨rest, rfl⟩ := h.exists_eq hne
    rw [← List.append_assoc, List.getLast?_append]
    rfl

theorem linesFrom_append_newline (current start rest : List Char) :
    linesFrom current (start ++ '\n' :: rest)
      = linesFrom current (start ++ ['\n']) ++ lines rest := by
  induction start generalizing current with
  | nil => simp [linesFrom, lines]
  | cons c start ih =>
    simp only [List.cons_append, linesFrom]
    split
    · rw [ih, List.cons_append]
    · exact ih (c :: current)

theorem length_linesFrom_newline (current start : List Char) :
    (linesFrom current (start ++ ['\n'])).length = start.count '\n' + 1 := by
  induction start generalizing current with
  | nil => simp [linesFrom]
  | cons c start ih =>
    rw [List.cons_append, linesFrom]
    split
    next hc =>
      rw [List.length_cons, ih, beq_iff_eq.1 hc, List.count_cons_self]
    next hc =>
      rw [ih, List.count_cons_of_ne (by simpa using hc)]

theorem length_linesFrom_le (current text : List Char) :
    (linesFrom current text).length ≤ text.count '\n' + 1 := by
  induction text generalizing current with
  | nil =>
    rw [linesFrom]
    split <;> simp
  | cons c text ih =>
    rw [linesFrom]
    split
    next hc =>
      rw [List.length_cons, beq_iff_eq.1 hc, List.count_cons_self]
      exact Nat.succ_le_succ (ih [])
    next hc =>
      rw [List.count_cons_of_ne (by simpa using hc)]
      exact ih (c :: current)

theorem lines_append (h : EndsLines front) (back : List Char) :
    lines (front ++ back) = lines front ++ lines back := by
  by_cases hne : front = []
  · rw [hne]
    rfl
  · obtain ⟨start, rfl⟩ := h.exists_eq hne
    rw [List.append_assoc]
    exact linesFrom_append_newline [] start back

theorem length_lines (h : EndsLines front) : (lines front).length = front.count '\n' := by
  by_cases hne : front = []
  · rw [hne]
    rfl
  · obtain ⟨start, rfl⟩ := h.exists_eq hne
    rw [lines, length_linesFrom_newline, List.count_append]
    rfl

theorem exists_append_of_lines_eq (h : lines text = above ++ line :: below) :
    ∃ front back, text = front ++ back ∧ EndsLines front ∧ lines front = above ∧
      lines back = line :: below := by
  induction above generalizing text with
  | nil => exact ⟨[], text, rfl, Or.inl rfl, rfl, h⟩
  | cons first above ih =>
    have hmem : '\n' ∈ text := by
      have hle := length_linesFrom_le [] text
      rw [← lines, h, List.length_append, List.length_cons, List.length_cons] at hle
      exact List.count_pos_iff.1 (by omega)
    obtain ⟨start, rest, rfl, hstart⟩ := List.eq_append_cons_of_mem hmem
    -- The part up to the first line feed is one line.
    obtain ⟨only, honly⟩ : ∃ only, lines (start ++ ['\n']) = [only] := by
      rw [← List.length_eq_one_iff, lines, length_linesFrom_newline, List.count_eq_zero.2 hstart]
    have hcut : lines (start ++ '\n' :: rest) = only :: lines rest := by
      rw [lines, linesFrom_append_newline, ← lines, honly]
      rfl
    rw [hcut, List.cons_append, List.cons.injEq] at h
    obtain ⟨rfl, h⟩ := h
    obtain ⟨front, back, rfl, hfront, habove, hback⟩ := ih h
    refine ⟨start ++ ['\n'] ++ front, back, by simp, hfront.append start, ?_, hback⟩
    rw [lines_append (Or.inr (by simp)), honly, habove]
    rfl

end PatchSynth
