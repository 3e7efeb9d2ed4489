import PatchSynth.Catalog
import PatchSynth.Proofs.Patch.Retoken

/-!
This module contains that it does not matter how the tokens of a line are kept apart: lines with the
same tokens do the same to a patch, and their errors differ in the text of the line only.
-/

namespace PatchSynth
namespace Parser

variable {line other : List Char}

theorem snd_addLine_of_tokens (parser : Parser) (registry : Registry) (hline : ¬ Skipped line)
    (hother : ¬ Skipped other) (htokens : tokens other = tokens line) :
    (parser.addLine registry other).2 = (parser.addLine registry line).2 := by
  rw [addLine_of_define hline, addLine_of_define hother, htokens]
  cases parser.patch.define registry (parser.lineNumber + 1) (tokens line) with
  | mk result next => cases result <;> rfl

/--
Any delimiters will do. Take two lines with the same tokens, the first of which starts with neither
a blank nor a `#`. Either both define the same instance, with the same numbers and inputs, or both
are refused with the same fault at the same token. In both cases they leave the same behind; what
differs is the line that an error quotes.
-/
theorem addLine_of_runs (parser : Parser) (registry : Registry) {first : List Char}
    {rest : List (List Char)} (hline : Runs line (first :: rest))
    (hother : Runs other (first :: rest)) (hfirst : OpensLine first) :
    (parser.addLine registry other).2 = (parser.addLine registry line).2 ∧
    ((∃ id name device numbers,
        (parser.addLine registry line).1 = .ok (some id) ∧
        (parser.addLine registry other).1 = .ok (some id) ∧
        parser.patch.Defines (parser.addLine registry line).2.patch name device numbers ∧
        parser.patch.Defines (parser.addLine registry other).2.patch name device numbers) ∨
      ∃ error : ParseError,
        (parser.addLine registry line).1 = .error error ∧
        error.line = String.ofList (trimEnd line) ∧
        (parser.addLine registry other).1
          = .error { error with line := String.ofList (trimEnd other) }) := by
  rw [runs_iff] at hline hother
  have hopen := not_skipped_of_tokens hline.symm hfirst
  have hopen' := not_skipped_of_tokens hother.symm hfirst
  have htokens : tokens other = tokens line := by rw [← hline, ← hother]
  have hsame := snd_addLine_of_tokens parser registry hopen hopen' htokens
  refine ⟨hsame, ?_⟩
  obtain ⟨name, device, numbers, haccepts⟩ | ⟨fault, token, numbers, hrefuses⟩ :=
    Scope.accepts_or_refuses registry parser.patch.scope parser.patch.rack.nodes.size (tokens line)
  · obtain ⟨hresult, hdefines⟩ := addLine_of_accepts hopen haccepts
    rw [← htokens] at haccepts
    obtain ⟨hresult', hdefines'⟩ := addLine_of_accepts hopen' haccepts
    exact Or.inl ⟨_, _, device, numbers, hresult, hresult', hdefines, hdefines'⟩
  · obtain ⟨hresult, -⟩ := addLine_of_refuses hopen hrefuses
    rw [← htokens] at hrefuses
    obtain ⟨hresult', -⟩ := addLine_of_refuses hopen' hrefuses
    exact Or.inr ⟨_, hresult, rfl, hresult'⟩

def usualLine : List Char := "Add sum(3volts, 4)".toList

def unusualLine : List Char := "\t,Add)sum\r3volts( \n(4,,".toList

theorem addLine_of_runs_unusual :
    Runs usualLine ["Add".toList, "sum".toList, "3volts".toList, "4".toList] ∧
    Runs unusualLine ["Add".toList, "sum".toList, "3volts".toList, "4".toList] ∧
    OpensLine "Add".toList ∧
    (({} : Parser).addLine Registry.standard usualLine).1 = .ok (some 2) ∧
    (({} : Parser).addLine Registry.standard unusualLine).1 = .ok (some 2) ∧
    (({} : Parser).addLine Registry.standard unusualLine).2
      = (({} : Parser).addLine Registry.standard usualLine).2 := by
  have husual : Runs usualLine ["Add".toList, "sum".toList, "3volts".toList, "4".toList] :=
    runs_iff.2 (by decide)
  have hunusual : Runs unusualLine ["Add".toList, "sum".toList, "3volts".toList, "4".toList] :=
    runs_iff.2 (by decide)
  have hopens : OpensLine "Add".toList := by decide
  obtain ⟨hsame, -⟩ := addLine_of_runs {} Registry.standard husual hunusual hopens
  exact ⟨husual, hunusual, hopens, rfl, rfl, hsame⟩

end Parser
end PatchSynth
