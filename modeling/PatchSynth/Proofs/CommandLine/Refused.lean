import PatchSynth.Proofs.CommandLine.Reads
import PatchSynth.Proofs.Text.Digits

/-!
This module contains the values that the arguments of the program reject: a pair without two sides,
or a block size that is out of bounds.
-/

namespace PatchSynth

namespace Argument

inductive NoPair (text : String) : Prop where
  | noSign (hsign : '=' ∉ text.toList)
  | noSide {key value : List Char} (htext : text.toList = key ++ '=' :: value) (hkey : '=' ∉ key)
      (hempty : key = [] ∨ value = [])

inductive Refuses : Argument → String → Prop where
  | record {value : String} (h : NoPair value) : Refuses .record value
  | axis {value : String} (h : NoPair value) : Refuses .axis value
  | blockSize {value : String} {digits : List Char} (hdigits : ∀ c ∈ digits, c.isDigit = true)
      (hvalue : value.toList = digits ∨ value.toList = '+' :: digits)
      (hbounds : Nat.ofDigitChars 10 digits 0 = 0 ∨ maxFrames < Nat.ofDigitChars 10 digits 0) :
      Refuses .blockSize value

variable {argument : Argument} {value : String}

theorem NoPair.splitPair_eq (h : NoPair value) :
    Options.splitPair value = .error ("expected KEY=VALUE, got `" ++ value ++ "`") := by
  cases h with
  | noSign hsign => exact Options.splitPair_of_not_mem hsign
  | noSide htext hkey hempty =>
    rw [Options.splitPair_pair htext hkey, if_pos]
    simpa using hempty

theorem ok_of_mapError {α ε ε' : Type} {result : Except ε α} {f : ε → ε'} {found : α}
    (h : result.mapError f = .ok found) : result = .ok found := by
  cases result with
  | error e => cases h
  | ok _ => exact congrArg Except.ok (Except.ok.inj h)

theorem ofDigitChars_of_readNat {bound n : Nat} {digits text : List Char}
    (hdigits : ∀ c ∈ digits, c.isDigit = true) (htext : text = digits ∨ text = '+' :: digits)
    (h : readNat bound text = .ok n) : Nat.ofDigitChars 10 digits 0 = n := by
  obtain rfl | rfl := htext
  · cases text with
    | nil => cases h
    | cons c rest =>
      rw [readNat_of_digits (hdigits c List.mem_cons_self)] at h
      exact ofDigitChars_of_readDigits h
  · cases digits with
    | nil => cases h
    | cons c rest => exact ofDigitChars_of_readDigits h

theorem Refuses.rejects (h : argument.Refuses value) : argument.Rejects value := by
  intro options
  cases h with
  | record hpair =>
    simp only [enter, Options.readRecord, hpair.splitPair_eq]
    exact ⟨_, rfl⟩
  | axis hpair =>
    simp only [enter, Options.readAxis, hpair.splitPair_eq]
    exact ⟨_, rfl⟩
  | blockSize hdigits hvalue hbounds =>
    cases hresult : Options.readBlockSize value with
    | error message =>
      rw [enter, hresult]
      exact ⟨_, rfl⟩
    | ok frames =>
      have hframes := Options.of_readBlockSize hresult
      unfold Options.readBlockSize at hresult
      obtain ⟨found, hfound, hresult⟩ := exists_ok_of_bind hresult
      have hnumber := ofDigitChars_of_readNat hdigits hvalue (ok_of_mapError hfound)
      split at hresult
      next => cases hresult
      next =>
        cases hresult
        omega

theorem Refuses.ne_patch (h : argument.Refuses value) : argument ≠ .patch := by
  cases h <;> decide

theorem Refuses.takesValue (h : argument.Refuses value) : argument.takesValue = true := by
  cases h <;> rfl

end Argument
end PatchSynth
