import PatchSynth.Proofs.Patch.SingleAssignment
import PatchSynth.Proofs.Player.Render

/-!
This module contains that a patch plays the same blocks if every definition in its text gets a name
of its own.
-/

namespace PatchSynth

namespace Player

theorem fst_renders_congr {patch twin : Patch} (h : twin.rack = patch.rack) (player : Player)
    (calls : List (Controls × Nat)) :
    (player.renders calls twin).1 = (player.renders calls patch).1 := by
  induction calls generalizing player patch twin with
  | nil => rfl
  | cons call rest ih =>
    obtain ⟨controls, frames⟩ := call
    have hfirst : (player.render controls frames twin).1
        = (player.render controls frames patch).1 := by
      rw [fst_render, fst_render, h]
    have hrack : (player.render controls frames twin).2.2.rack
        = (player.render controls frames patch).2.2.rack := by
      rw [rack_render, rack_render, h]
    simp only [renders]
    rw [hfirst, snd_render, snd_render, ih hrack]

/--
A text that is accepted and defines a stereo output, and the text in which every definition has a
new name of its own and every reference the new name of the nearest definition above its line. The
second text defines no name twice, it is accepted as well, with as many constants without a name,
and both play the same blocks and fail with the same errors.
-/
theorem renders_assign (naming : Naming) {files : Files} {text : String} {patch : Patch}
    {output : Nat}
    (hparse : Patch.parse { rack := { files } } Registry.standard text = (.ok (), patch))
    (houtput : patch.table.get? outputName = some output)
    (hstereo : patch.rack.isStereo output = true) :
    (Player.new patch).1 = .ok { output } ∧
    (∃ renamed : String,
      lines renamed.toList = naming.assign Registry.standard (lines text.toList)) ∧
    ∀ renamed : String,
      lines renamed.toList = naming.assign Registry.standard (lines text.toList) →
        ((lines renamed.toList).filterMap definedName).Nodup ∧
        ∃ twin, Patch.parse { rack := { files } } Registry.standard renamed = (.ok (), twin) ∧
          twin.table.anonymous.length = patch.table.anonymous.length ∧
          (Player.new twin).1 = .ok { output } ∧
          ∀ calls, (renders { output } calls (Player.new twin).2).1
            = (renders { output } calls (Player.new patch).2).1 := by
  refine ⟨fst_new_eq_ok_iff.2 ⟨output, houtput, hstereo, rfl⟩,
    naming.exists_lines_eq_assign Registry.standard text, ?_⟩
  intro renamed hrenamed
  obtain ⟨hnodup, twin, htwin, hrack, hanonymous, hname⟩ :=
    Patch.parse_assign naming Registry.opensLines_standard hparse hrenamed
  refine ⟨hnodup, twin, htwin, congrArg List.length hanonymous, ?_, ?_⟩
  · exact fst_new_eq_ok_iff.2 ⟨output, hname output houtput, by rw [hrack, hstereo], rfl⟩
  · intro calls
    apply fst_renders_congr
    rw [rack_new, rack_new, hrack]

end Player

def Naming.letters : Naming where
  fresh index := List.replicate (index + 1) 'a'
  isName_fresh index := by
    refine ⟨by simp, ?_⟩
    intro c hc
    rw [List.eq_of_mem_replicate hc]
    decide
  injective := by
    intro index other h
    have hlength := congrArg List.length h
    simpa using hlength
  ne_output index := by
    rw [List.replicate_succ]
    intro h
    cases h

namespace Player

def redefinedText : String :=
  "Input x(0)\n# twice\nAdd x(x, 1)\nPan output(x, 0)\nStereoAdd output(output, output)\n"

def renamedText : String :=
  "Input a(0)\n# twice\nAdd aa(a, 1)\nPan aaa(aa, 0)\nStereoAdd output(aaa, aaa)\n"

theorem renders_assign_redefined :
    ∃ patch twin : Patch, Patch.parse {} Registry.standard redefinedText = (.ok (), patch) ∧
      patch.table.get? outputName = some 5 ∧ patch.rack.isStereo 5 = true ∧
      lines renamedText.toList
        = Naming.letters.assign Registry.standard (lines redefinedText.toList) ∧
      Patch.parse {} Registry.standard renamedText = (.ok (), twin) ∧
      patch.table.size = 2 ∧ twin.table.size = 4 ∧ twin.table.anonymous.length = 2 ∧
      ∀ calls, (renders { output := 5 } calls (Player.new twin).2).1
        = (renders { output := 5 } calls (Player.new patch).2).1 := by
  have hparse : Patch.parse {} Registry.standard redefinedText
      = (.ok (), (Patch.parse {} Registry.standard redefinedText).2) := Prod.ext rfl rfl
  have hrenamed : lines renamedText.toList
      = Naming.letters.assign Registry.standard (lines redefinedText.toList) := by decide
  have houtput : (Patch.parse {} Registry.standard redefinedText).2.table.get? outputName
      = some 5 := rfl
  obtain ⟨-, -, hall⟩ := renders_assign Naming.letters hparse houtput rfl
  obtain ⟨-, twin, htwin, hanonymous, -, hrenders⟩ := hall renamedText hrenamed
  have hparsed : (Patch.parse {} Registry.standard renamedText).2 = twin := congrArg Prod.snd htwin
  have hsize : twin.table.size = 4 := by
    rw [← hparsed]
    rfl
  exact ⟨_, twin, hparse, houtput, rfl, hrenamed, htwin, rfl, hsize, hanonymous, hrenders⟩

end Player
end PatchSynth
