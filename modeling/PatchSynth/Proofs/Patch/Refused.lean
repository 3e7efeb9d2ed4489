import PatchSynth.Catalog
import PatchSynth.Proofs.Patch.Line

/-!
This module contains what a refused line leaves behind: the constants of the numbers before its
fault, and nothing else.
-/

namespace PatchSynth

def Node.ofNumber (number : Float32) : Node where
  device := .constant number
  range := .point number
  buffer := Array.replicate (maxFrames * (Device.constant number : Device Nat).channels) number

namespace Patch

variable {patch : Patch} {numbers : List Float32}

def withConstants (patch : Patch) (numbers : List Float32) : Patch :=
  { patch with
    rack :=
      { patch.rack with
        nodes := patch.rack.nodes ++ (numbers.map Node.ofNumber).toArray }
    table :=
      { patch.table with
        anonymous := patch.table.anonymous
          ++ List.range' patch.rack.nodes.size numbers.length } }

theorem withConstants_cons (patch : Patch) (number : Float32) (numbers : List Float32) :
    (patch.withConstants [number]).withConstants numbers
      = patch.withConstants (number :: numbers) := by
  have hrange : List.range' patch.rack.nodes.size (numbers.length + 1)
      = patch.rack.nodes.size :: List.range' (patch.rack.nodes.size + 1) numbers.length :=
    List.range'_succ
  simp [withConstants, hrange]

theorem addLiterals_eq (patch : Patch) (numbers : List Float32) :
    patch.addLiterals numbers = patch.withConstants numbers := by
  induction numbers generalizing patch with
  | nil => simp [addLiterals, withConstants]
  | cons number rest ih =>
    have hfirst : patch.addLiteral number = patch.withConstants [number] := by
      have hpush : patch.rack.nodes.push (Node.ofNumber number)
          = patch.rack.nodes ++ ([number].map Node.ofNumber).toArray := by
        simp
      rw [withConstants, ← hpush]
      rfl
    calc patch.addLiterals (number :: rest)
      _ = (patch.addLiteral number).addLiterals rest := rfl
      _ = (patch.withConstants [number]).withConstants rest := by rw [ih, hfirst]
      _ = patch.withConstants (number :: rest) := patch.withConstants_cons number rest

theorem withConstants_eq_self_iff : patch.withConstants numbers = patch ↔ numbers = [] := by
  constructor
  · intro heq
    have hsize := congrArg (fun patch => patch.rack.nodes.size) heq
    simp only [withConstants, Array.size_append, List.size_toArray, List.length_map] at hsize
    rw [← List.length_eq_zero_iff]
    omega
  · rintro rfl
    simp [withConstants]

end Patch

namespace Parser

variable {parser : Parser} {registry : Registry} {line : List Char} {error : ParseError}

/--
What a refused line leaves behind. Whatever the fault and wherever it is, the numbers before it that
stand for instances have got constants, in order and without a name. Names, nodes, recordings and
the log are as they were, and only the count of the lines has gone on. So the patch is the one from
before if and only if there was no such number.
-/
theorem snd_addLine_of_error (herror : (parser.addLine registry line).1 = .error error) :
    ∃ token numbers,
      Scope.Refuses registry parser.patch.scope parser.patch.rack.nodes.size (tokens line)
        error.fault token numbers ∧
      error.token = String.ofList token ∧
      (parser.addLine registry line).2
        = { patch := parser.patch.withConstants numbers
            lineNumber := parser.lineNumber + 1 } ∧
      ((parser.addLine registry line).2.patch = parser.patch ↔ numbers = []) := by
  obtain ⟨-, hother⟩ | ⟨-, _, _, _, -, hother⟩ | ⟨hline, fault, token, numbers, hrefuses, heq⟩ :=
    parser.addLine_cases registry line
  · rw [herror] at hother
    cases hother
  · rw [herror] at hother
    cases hother
  · rw [herror] at heq
    cases heq
    have hnext : (parser.addLine registry line).2
        = { patch := parser.patch.withConstants numbers
            lineNumber := parser.lineNumber + 1 } := by
      rw [addLine_of_define hline, Patch.define_of_refuses hrefuses, Patch.addLiterals_eq]
    refine ⟨token, numbers, hrefuses, rfl, hnext, ?_⟩
    rw [hnext]
    exact Patch.withConstants_eq_self_iff

theorem snd_addLine_of_error_surplus :
    ∃ error, (({} : Parser).addLine Registry.standard "Add x(1, 2, 3)".toList).1 = .error error ∧
      error.fault = .tooManyParams ∧ ∃ token numbers,
        Scope.Refuses Registry.standard ({} : Parser).patch.scope 0 (tokens "Add x(1, 2, 3)".toList)
          error.fault token numbers ∧
        error.token = String.ofList token ∧
        (({} : Parser).addLine Registry.standard "Add x(1, 2, 3)".toList).2
          = { patch := Patch.withConstants {} numbers, lineNumber := 1 } ∧
        ((({} : Parser).addLine Registry.standard "Add x(1, 2, 3)".toList).2.patch = {}
          ↔ numbers = []) := by
  have herror : (({} : Parser).addLine Registry.standard "Add x(1, 2, 3)".toList).1
      = .error
        { fault := .tooManyParams, lineNumber := 1, line := "Add x(1, 2, 3)", token := "3" } := rfl
  exact ⟨_, herror, rfl, snd_addLine_of_error herror⟩

theorem anonymous_addLine_unknownInstance :
    (∃ error,
      (({} : Parser).addLine Registry.standard "Add x(1, nope)".toList).1 = .error error ∧
      error.fault = .unknownInstance ∧ error.token = "nope") ∧
    ({} : Parser).patch.table.anonymous = [] ∧
    (({} : Parser).addLine Registry.standard "Add x(1, nope)".toList).2.patch.table.anonymous
      = [0] :=
  ⟨⟨_, rfl, rfl, rfl⟩, rfl, rfl⟩

end Parser
end PatchSynth
