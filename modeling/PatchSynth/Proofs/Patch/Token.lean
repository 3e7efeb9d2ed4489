import Mathlib
import PatchSynth.Patch.Token

/-!
This module contains what the tokens of a text are, without a look at how they are found: the runs
of characters between delimiters, each as long as it can be.
-/

namespace PatchSynth

/--
Whether a list contains the longest runs of characters of a text that are no delimiters, in order.
-/
inductive Runs : List Char → List (List Char) → Prop where
  | nil : Runs [] []
  | gap {c : Char} {rest : List Char} {runs : List (List Char)} (hc : isDelimiter c = true)
      (hrest : Runs rest runs) : Runs (c :: rest) runs
  | run {run rest : List Char} {runs : List (List Char)} (hne : run ≠ [])
      (hrun : ∀ c ∈ run, isDelimiter c = false) (hend : rest.head?.all isDelimiter = true)
      (hrest : Runs rest runs) : Runs (run ++ rest) (run :: runs)

theorem tokensFrom_append {current run : List Char} (hrun : ∀ c ∈ run, isDelimiter c = false)
    (rest : List Char) :
    tokensFrom current (run ++ rest) = tokensFrom (run.reverse ++ current) rest := by
  induction run generalizing current with
  | nil => rfl
  | cons c run ih =>
    rw [List.forall_mem_cons] at hrun
    obtain ⟨hc, hrun⟩ := hrun
    rw [List.cons_append, tokensFrom, hc, if_neg (by simp), ih hrun, List.reverse_cons,
      List.append_assoc]
    rfl

theorem tokens_of_gap {c : Char} (hc : isDelimiter c = true) (rest : List Char) :
    tokens (c :: rest) = tokens rest := by
  rw [tokens, tokensFrom, hc, if_pos rfl]
  rfl

theorem tokens_of_run {run rest : List Char} (hne : run ≠ [])
    (hrun : ∀ c ∈ run, isDelimiter c = false) (hend : rest.head?.all isDelimiter = true) :
    tokens (run ++ rest) = run :: tokens rest := by
  have hflush : ∀ later : List (List Char),
      tokensFrom.flush run.reverse later = run :: later := by
    intro later
    simp [tokensFrom.flush, hne]
  rw [tokens, tokensFrom_append hrun, List.append_nil]
  cases rest with
  | nil => exact hflush []
  | cons c rest =>
    have hc : isDelimiter c = true := by simpa using hend
    rw [tokensFrom, hc, if_pos rfl, hflush, tokens_of_gap hc]
    rfl

theorem exists_run (text : List Char) :
    ∃ run rest, text = run ++ rest ∧ (∀ c ∈ run, isDelimiter c = false) ∧
      rest.head?.all isDelimiter = true := by
  induction text with
  | nil => exact ⟨[], [], rfl, List.forall_mem_nil _, rfl⟩
  | cons c text ih =>
    cases hc : isDelimiter c with
    | true => exact ⟨[], c :: text, rfl, List.forall_mem_nil _, by simpa using hc⟩
    | false =>
      obtain ⟨run, rest, rfl, hrun, hend⟩ := ih
      exact ⟨c :: run, rest, rfl, List.forall_mem_cons.2 ⟨hc, hrun⟩, hend⟩

theorem runs_tokens (text : List Char) : Runs text (tokens text) := by
  induction hlength : text.length using Nat.strongRecOn generalizing text with
  | ind length ih =>
    obtain ⟨run, rest, rfl, hrun, hend⟩ := exists_run text
    cases run with
    | nil =>
      cases rest with
      | nil => exact Runs.nil
      | cons c rest =>
        have hc : isDelimiter c = true := by simpa using hend
        rw [List.nil_append, tokens_of_gap hc]
        exact Runs.gap hc (ih rest.length (by simp [← hlength]) rest rfl)
    | cons c run =>
      have hlt : rest.length < length := by
        rw [← hlength, List.length_append, List.length_cons]
        omega
      rw [tokens_of_run (by simp) hrun hend]
      exact Runs.run (by simp) hrun hend (ih rest.length hlt rest rfl)

theorem runs_iff {text : List Char} {runs : List (List Char)} :
    Runs text runs ↔ runs = tokens text := by
  constructor
  · intro h
    induction h with
    | nil => rfl
    | gap hc _ ih => rw [tokens_of_gap hc, ih]
    | run hne hrun hend _ ih => rw [tokens_of_run hne hrun hend, ih]
  · rintro rfl
    exact runs_tokens text

end PatchSynth
