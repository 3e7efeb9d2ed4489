import Mathlib
import PatchSynth.Device.Fill

/-!
This module contains windows: the consecutive samples of an endless signal that a block holds.
-/

namespace PatchSynth

abbrev Signal := Nat → Float32

namespace Signal

def window (signal : Signal) (start count : Nat) : Block :=
  ((List.range' start count).map signal).toArray

@[simp]
theorem window_zero (signal : Signal) (start : Nat) : signal.window start 0 = #[] := rfl

theorem toList_window (signal : Signal) (start count : Nat) :
    (signal.window start count).toList = (List.range' start count).map signal := rfl

@[simp]
theorem size_window (signal : Signal) (start count : Nat) :
    (signal.window start count).size = count := by
  simp [window]

theorem mem_window {signal : Signal} {start count : Nat} {sample : Float32} :
    sample ∈ signal.window start count
      ↔ ∃ time, start ≤ time ∧ time < start + count ∧ signal time = sample := by
  simp only [window, List.mem_toArray, List.mem_map, List.mem_range'_1, and_assoc]

theorem window_append (signal : Signal) (start first second : Nat) :
    signal.window start first ++ signal.window (start + first) second
      = signal.window start (first + second) := by
  simp only [window, List.append_toArray, ← List.map_append]
  have hrange : List.range' start first ++ List.range' (start + first) second
      = List.range' start (first + second) := by
    simp
  rw [hrange]

@[simp]
theorem extract_window (signal : Signal) (start count : Nat) :
    (signal.window start count).extract 0 count = signal.window start count := by
  have hsize := size_window signal start count
  simp [Array.extract_eq_self_of_le, hsize]

theorem map_window (f : Float32 → Float32) (signal : Signal) (start count : Nat) :
    (signal.window start count).map f = window (fun time => f (signal time)) start count := by
  simp [window]

theorem zipWith_window (f : Float32 → Float32 → Float32) (a b : Signal) (start count : Nat) :
    Array.zipWith f (a.window start count) (b.window start count)
      = window (fun time => f (a time) (b time)) start count := by
  simp [window, List.zipWith_map, List.zipWith_self]

theorem window_const (value : Float32) (start count : Nat) :
    window (fun _ => value) start count = Array.replicate count value := by
  simp [window, List.map_const']

def interleave (left right : Signal) : Signal :=
  fun time => if time % 2 = 0 then left (time / 2) else right (time / 2)

theorem flatMap_interleave (left right : Signal) (start count : Nat) :
    (List.range' start count).flatMap (fun time => [left time, right time])
      = (List.range' (start * 2) (count * 2)).map (interleave left right) := by
  induction count generalizing start with
  | zero => rfl
  | succ count ih =>
    have hcount : (count + 1) * 2 = count * 2 + 2 := by omega
    have hnext : start * 2 + 1 + 1 = (start + 1) * 2 := by omega
    have hleft : interleave left right (start * 2) = left start := by
      have hmod : start * 2 % 2 = 0 := by omega
      have hdiv : start * 2 / 2 = start := by omega
      rw [interleave, if_pos hmod, hdiv]
    have hright : interleave left right (start * 2 + 1) = right start := by
      have hmod : ¬ (start * 2 + 1) % 2 = 0 := by omega
      have hdiv : (start * 2 + 1) / 2 = start := by omega
      rw [interleave, if_neg hmod, hdiv]
    rw [List.range'_succ, List.flatMap_cons, ih (start + 1), hcount, List.range'_succ,
      List.range'_succ, hnext]
    simp only [List.map_cons, hleft, hright, List.cons_append, List.nil_append]

theorem flatMap_zipWith_window (f : Float32 → Float32 → Float32 × Float32) (a b : Signal)
    (start count : Nat) :
    ((Array.zipWith f (a.window start count) (b.window start count)).extract 0 count).flatMap
        (fun pair => #[pair.1, pair.2])
      = window
          (interleave (fun time => (f (a time) (b time)).1) fun time => (f (a time) (b time)).2)
          (start * 2) (count * 2) := by
  have hsize : (Array.zipWith f (a.window start count) (b.window start count)).size ≤ count := by
    simp
  rw [Array.extract_eq_self_of_le hsize]
  simp only [window, ← flatMap_interleave]
  simp [List.zipWith_map, List.zipWith_self, List.flatMap_map]

end Signal
end PatchSynth
