import PatchSynth.Proofs.Patch.Line
import PatchSynth.Proofs.Patch.Record
import PatchSynth.Proofs.Patch.Typed

/-!
This module contains that the instances of a text are different nodes: a line builds a node of its
own, and no name stands for it before. So takes of different names are takes of different nodes.
-/

namespace PatchSynth

namespace Patch

def Distinct (patch : Patch) : Prop :=
  ∀ (name other : String) (id : Nat), patch.table.get? name = some id →
    patch.table.get? other = some id → name = other

variable {patch next : Patch}

theorem Distinct.of_get?_eq (h : patch.Distinct)
    (hget : ∀ name, next.table.get? name = patch.table.get? name) : next.Distinct := by
  intro name other id hname hother
  rw [hget] at hname hother
  exact h name other id hname hother

theorem Distinct.of_defines (h : patch.Distinct) (hnamed : patch.Named) {name : String}
    {device : Device Nat} {numbers : List Float32}
    (hdefines : patch.Defines next name device numbers) : next.Distinct := by
  intro first second id hfirst hsecond
  rw [hdefines.get?_eq] at hfirst hsecond
  split at hfirst
  next heq =>
    split at hsecond
    next heq' => rw [heq, heq']
    next =>
      have := hnamed second id hsecond
      simp only [Option.some.injEq] at hfirst
      omega
  next =>
    split at hsecond
    next =>
      have := hnamed first id hfirst
      simp only [Option.some.injEq] at hsecond
      omega
    next => exact h first second id hfirst hsecond

theorem takeOf_of_mem (h : patch.Distinct) {takes : List Take}
    (hnames : (takes.map Take.name).Nodup) {take : Take} (hmem : take ∈ takes) {id : Nat}
    (hname : patch.table.get? take.name = some id) : patch.takeOf takes id = some take := by
  have hsome : (patch.takeOf takes id).isSome = true := by
    rw [takeOf, List.find?_isSome]
    exact ⟨take, hmem, by simpa using hname⟩
  obtain ⟨found, hfound⟩ := Option.isSome_iff_exists.1 hsome
  obtain ⟨hfoundMem, hfoundName⟩ := of_takeOf hfound
  have heq : found.name = take.name := h _ _ id hfoundName hname
  rw [hfound, List.inj_on_of_nodup_map hnames hfoundMem hmem heq]

end Patch

namespace Parser

variable {parser : Parser}

theorem distinct_addLine (h : parser.patch.Distinct) (hnamed : parser.patch.Named)
    (registry : Registry) (line : List Char) :
    (parser.addLine registry line).2.patch.Distinct := by
  by_cases hline : Skipped line
  · rw [addLine_of_skipped hline]
    exact h
  · obtain ⟨name, device, numbers, haccepts⟩ | ⟨fault, token, numbers, hrefuses⟩ :=
      Scope.accepts_or_refuses registry parser.patch.scope parser.patch.rack.nodes.size
        (tokens line)
    · exact h.of_defines hnamed (addLine_of_accepts hline haccepts).2
    · exact h.of_get?_eq (addLine_of_refuses hline hrefuses).2.get?_eq

theorem distinct_addLines (h : parser.patch.Distinct) (hnamed : parser.patch.Named)
    (registry : Registry) (lines : List (List Char)) :
    (parser.addLines registry lines).2.patch.Distinct := by
  induction lines generalizing parser with
  | nil => exact h
  | cons line rest ih =>
    have hline := distinct_addLine h hnamed registry line
    have hnext := named_addLine hnamed registry line
    rw [addLines]
    split
    next hresult =>
      rw [hresult] at hline
      exact hline
    next hresult =>
      rw [hresult] at hline hnext
      exact ih hline hnext

end Parser

theorem Patch.distinct_parse (files : Files) (registry : Registry) (text : String) :
    (Patch.parse { rack := { files } } registry text).2.Distinct := by
  have hdistinct : ({ rack := { files } } : Patch).Distinct := nofun
  have hnamed : ({ rack := { files } } : Patch).Named := nofun
  exact Parser.distinct_addLines hdistinct hnamed registry (lines text.toList)

end PatchSynth
