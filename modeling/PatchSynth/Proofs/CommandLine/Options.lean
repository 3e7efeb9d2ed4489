import PatchSynth.CommandLine.Parser
import PatchSynth.Proofs.Patch.Parse
import PatchSynth.Proofs.Text.Digits

/-!
This module contains what all command lines that are accepted have in common: what holds of the
defaults, and of the options after every argument if it did before.
-/

namespace PatchSynth

namespace Options
namespace Reading

structure Keeps (P : Reading → Prop) : Prop where
  enter : ∀ {reading next : Reading} {argument : Argument} {value : Option String}, P reading →
    reading.enter argument value = .ok next → P next
  pending : ∀ {reading : Reading} (pending : Option (Argument × Option String)), P reading →
    P { reading with pending }

namespace Keeps

variable {P : Reading → Prop} {reading last : Reading} {text : String}

theorem settle (hP : Keeps P) (h : P reading) (hlast : reading.settle = .ok last) : P last := by
  unfold Reading.settle at hlast
  split at hlast
  next => exact hP.enter (hP.pending none h) hlast
  next =>
    cases hlast
    exact h

theorem long (hP : Keeps P) (h : P reading) {text : List Char}
    (hlast : reading.long text = .ok last) : P last := by
  unfold Reading.long at hlast
  dsimp only at hlast
  split at hlast
  next => cases hlast
  next argument _ =>
    split at hlast
    next =>
      obtain ⟨settled, hsettled, hlast⟩ := exists_ok_of_bind hlast
      have hkept := hP.settle h hsettled
      cases hlast
      exact hP.pending _ hkept
    next => cases hlast
    next =>
      obtain ⟨settled, hsettled, hlast⟩ := exists_ok_of_bind hlast
      exact hP.enter (hP.settle h hsettled) hlast

theorem short (hP : Keeps P) {letters : List Char} (h : P reading)
    (hlast : reading.short letters = .ok last) : P last := by
  induction letters generalizing reading with
  | nil =>
    cases hlast
    exact h
  | cons letter rest ih =>
    rw [Reading.short] at hlast
    split at hlast
    next => cases hlast
    next =>
      obtain ⟨settled, hsettled, hlast⟩ := exists_ok_of_bind hlast
      obtain ⟨entered, hentered, hlast⟩ := exists_ok_of_bind hlast
      exact ih (hP.enter (hP.settle h hsettled) hentered) hlast

theorem positional (hP : Keeps P) (h : P reading) (hlast : reading.positional text = .ok last) :
    P last := by
  unfold Reading.positional at hlast
  dsimp only at hlast
  split at hlast
  next => cases hlast
  next =>
    obtain ⟨settled, hsettled, hlast⟩ := exists_ok_of_bind hlast
    have hkept := hP.settle h hsettled
    cases hlast
    exact hP.pending _ hkept

theorem next (hP : Keeps P) (h : P reading)
    (hliteral : text = "--" → P { reading with literal := true })
    (hlast : reading.next text = .ok last) : P last := by
  unfold Reading.next at hlast
  split at hlast
  next => exact hP.positional h hlast
  next =>
    split at hlast
    next hchars =>
      cases hlast
      apply hliteral
      rw [← String.ofList_toList (s := text), hchars]
    next => exact hP.long h hlast
    next => exact hP.short h hlast
    next =>
      split at hlast
      next =>
        cases hlast
        exact hP.pending _ h
      next => exact hP.positional h hlast

theorem foldlM (hP : Keeps P) {arguments : List String} (h : P reading)
    (hliteral : "--" ∈ arguments → ∀ {reading : Reading}, P reading →
      P { reading with literal := true })
    (hlast : arguments.foldlM Reading.next reading = .ok last) : P last := by
  induction arguments generalizing reading with
  | nil =>
    cases hlast
    exact h
  | cons text rest ih =>
    rw [List.foldlM_cons] at hlast
    obtain ⟨first, hfirst, hlast⟩ := exists_ok_of_bind hlast
    apply ih _ (fun hmem => hliteral (List.mem_cons_of_mem _ hmem)) hlast
    apply hP.next h _ hfirst
    rintro rfl
    exact hliteral List.mem_cons_self h

end Keeps

theorem exists_of_enter {reading next : Reading} {argument : Argument} {value : Option String}
    (h : reading.enter argument value = .ok next) :
    ∃ options, next = { reading with options, given := argument :: reading.given } ∧
      (value.elim (argument.enterFlag reading.options) (argument.enter · reading.options))
        = .ok options := by
  unfold enter at h
  dsimp only at h
  split at h
  next => cases h
  split at h
  next => cases h
  cases value with
  | none =>
    obtain ⟨options, hoptions, h⟩ := exists_ok_of_bind h
    cases h
    exact ⟨options, rfl, hoptions⟩
  | some value =>
    obtain ⟨options, hoptions, h⟩ := exists_ok_of_bind h
    cases h
    exact ⟨options, rfl, hoptions⟩

end Reading
end Options

structure Argument.Keeps (P : Options → Prop) : Prop where
  enter : ∀ {value : String} {options next : Options} {argument : Argument}, P options →
    argument.enter value options = .ok next → P next
  enterFlag : ∀ {options next : Options} {argument : Argument}, P options →
    argument.enterFlag options = .ok next → P next

namespace Options

variable {P : Options → Prop} {arguments : List String} {options : Options}

theorem keeps_reading (hP : Argument.Keeps P) : Reading.Keeps fun reading => P reading.options := by
  constructor
  · intro reading next argument value h hnext
    obtain ⟨options, rfl, hoptions⟩ := Reading.exists_of_enter hnext
    cases value with
    | none => exact hP.enterFlag h hoptions
    | some value => exact hP.enter h hoptions
  · intro reading pending h
    exact h

theorem keeps_parse (hP : Argument.Keeps P) (h : P {}) (hoptions : parse arguments = .ok options) :
    P options := by
  have hkeeps := keeps_reading hP
  unfold parse at hoptions
  obtain ⟨reading, hreading, hoptions⟩ := exists_ok_of_bind hoptions
  obtain ⟨settled, hsettled, hoptions⟩ := exists_ok_of_bind hoptions
  split at hoptions
  next => cases hoptions
  next =>
    cases hoptions
    exact hkeeps.settle (hkeeps.foldlM h (fun _ _ => id) hreading) hsettled

section Pair

variable {key value : List Char}

theorem bne_of_not_mem (h : '=' ∉ key) : ∀ c ∈ key, (c != '=') = true := by
  intro c hmem
  apply bne_iff_ne.2
  rintro rfl
  exact h hmem

theorem takeWhile_pair (hkey : '=' ∉ key) :
    (key ++ '=' :: value).takeWhile (· != '=') = key := by
  rw [List.takeWhile_append_of_pos (bne_of_not_mem hkey)]
  simp

theorem dropWhile_pair (hkey : '=' ∉ key) :
    (key ++ '=' :: value).dropWhile (· != '=') = '=' :: value := by
  rw [List.dropWhile_append_of_pos (bne_of_not_mem hkey)]
  simp

theorem splitPair_pair {text : String} (htext : text.toList = key ++ '=' :: value)
    (hkey : '=' ∉ key) :
    splitPair text
      = if key.isEmpty || value.isEmpty then
          .error ("expected KEY=VALUE, got `" ++ text ++ "`")
        else
          .ok (key, value) := by
  rw [splitPair, htext, takeWhile_pair hkey, dropWhile_pair hkey]

theorem splitPair_of_not_mem {text : String} (h : '=' ∉ text.toList) :
    splitPair text = .error ("expected KEY=VALUE, got `" ++ text ++ "`") := by
  rw [splitPair, List.dropWhile_eq_nil_iff.2 (bne_of_not_mem h)]

theorem readAxis_pair {axis : Int} {text : String} {number : Float32} (hlow : -2 ^ 63 ≤ axis)
    (hhigh : axis < 2 ^ 63) (hnumber : Single.read text = .ok number) :
    readAxis (toString axis ++ "=" ++ text) = .ok (axis, number) := by
  have hpair : (toString axis ++ "=" ++ text).toList
      = (toString axis).toList ++ '=' :: text.toList := by simp
  have hsign : '=' ∉ (toString axis).toList := not_mem_toString rfl (by decide) axis
  have haxis : readInt 0x7FFFFFFFFFFFFFFF (toString axis).toList = .ok axis :=
    readInt_toString (by omega) (by omega)
  have hne : (toString axis).toList ≠ [] := by
    rw [toList_toString_int]
    simp [Nat.toDigits_ne_nil]
  have htext : text ≠ "" := by
    rintro rfl
    cases hnumber
  have hsplit : splitPair (toString axis ++ "=" ++ text)
      = .ok ((toString axis).toList, text.toList) := by
    rw [splitPair_pair hpair hsign, if_neg]
    simp only [Bool.or_eq_true, List.isEmpty_iff, not_or]
    exact ⟨hne, fun hempty => htext (String.toList_eq_nil_iff.1 hempty)⟩
  simp only [readAxis, hsplit, haxis, String.ofList_toList, hnumber, bind, Except.bind, pure,
    Except.pure, Except.mapError]

end Pair

theorem of_readBlockSize {text : String} {frames : Nat} (h : readBlockSize text = .ok frames) :
    1 ≤ frames ∧ frames ≤ maxFrames := by
  unfold readBlockSize at h
  obtain ⟨found, -, h⟩ := exists_ok_of_bind h
  split at h
  next => cases h
  next hbounds =>
    cases h
    simp only [Bool.or_eq_true, decide_eq_true_eq, not_or] at hbounds
    omega

theorem blockSize_of_parse {arguments : List String} {options : Options}
    (h : parse arguments = .ok options) :
    1 ≤ options.blockSize ∧ options.blockSize ≤ maxFrames := by
  have hkeeps : Argument.Keeps fun options =>
      1 ≤ options.blockSize ∧ options.blockSize ≤ maxFrames := by
    refine ⟨?_, ?_⟩
    · intro value options next argument hoptions hnext
      cases argument with
      | patch =>
        rw [Argument.enter] at hnext
        split at hnext
        next => cases hnext
        next =>
          cases hnext
          exact hoptions
      | blockSize =>
        rw [Argument.enter] at hnext
        obtain ⟨frames, hframes, hnext⟩ := exists_ok_of_bind hnext
        cases hnext
        cases hread : readBlockSize value with
        | error e =>
          rw [hread] at hframes
          cases hframes
        | ok found =>
          rw [hread] at hframes
          cases hframes
          exact of_readBlockSize hread
      | blocks | record | scaler | axis =>
        rw [Argument.enter] at hnext
        obtain ⟨entered, -, hnext⟩ := exists_ok_of_bind hnext
        cases hnext
        exact hoptions
      | verbose | quiet | help | version => cases hnext
    · intro options next argument hoptions hnext
      cases argument with
      | verbose | quiet =>
        cases hnext
        exact hoptions
      | _ => cases hnext
  exact keeps_parse hkeeps (by decide) h

end Options
end PatchSynth
