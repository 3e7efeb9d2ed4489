import PatchSynth.Proofs.Rack.Validated
import PatchSynth.Proofs.Studio.History

/-!
This module contains what a session says about the checks of declared ranges: when a node has handed
out a block, no later task can make it fail because of what an input declares.
-/

namespace PatchSynth

namespace Player

theorem not_isInputRange_of_advance {player : Player} {patch : Patch}
    (h : patch.rack.Accepted player.output) {calls : List (Controls × Nat)} {e : Error}
    (herror : (player.advance patch calls).1 = .error e) : ¬ e.IsInputRange := by
  obtain ⟨before, request, houtput⟩ := exists_output_of_advance herror
  exact (h.later (Rack.later_outputs _ before)).not_isInputRange houtput

end Player

namespace Studio

variable {studio : Studio} {task : Task} {id : Nat}

/--
Whether one of the calls that a task comes to hands out a block of a node.
-/
def Hands (studio : Studio) (task : Task) (id : Nat) : Prop :=
  ∃ before request rest, studio.pulls task = before ++ (request, id) :: rest ∧
    ∃ block, ((studio.patch.rack.outputs before).output request id).1 = .ok block

theorem Hands.accepted (h : studio.Reached) (hstandard : studio.patch.rack.Standard)
    (hallowed : studio.Allows task) (hhands : studio.Hands task id) :
    (studio.perform task).patch.rack.Accepted id := by
  obtain ⟨before, request, rest, hpulls, block, hok⟩ := hhands
  have hrack : (studio.perform task).patch.rack
      = studio.patch.rack.outputs (studio.pulls task) := by
    obtain heq | ⟨hnone, -⟩ | ⟨hnone, -⟩ := perform_cases h hallowed
    · exact heq
    · rw [hpulls] at hnone
      cases before <;> cases hnone
    · rw [hpulls] at hnone
      cases before <;> cases hnone
  have hbefore : (studio.patch.rack.outputs before).Reachable := by
    obtain ⟨files, hreachable⟩ := h.reachable
    exact ⟨files, hreachable.trans (Rack.later_outputs _ before)⟩
  have hsame : (studio.patch.rack.outputs before).Standard :=
    hstandard.of_shape (Rack.shape_outputs _ before)
  have hrest : studio.patch.rack.outputs (before ++ (request, id) :: rest)
      = ((studio.patch.rack.outputs before).output request id).2.outputs rest := by
    unfold Rack.outputs
    rw [List.foldl_append, List.foldl_cons]
  rw [hrack, hpulls, hrest]
  exact (Rack.Accepted.of_output hbefore hsame hok).later (Rack.later_outputs _ rest)

/--
When a node of standard devices has handed out a block, it never fails again because of what an
input declares: whatever is done from then on, no call for a block of it and no player of it ends
with that error, at any timestamp and for any number of frames.
-/
theorem not_isInputRange_of_hands (h : studio.Reached) (hstandard : studio.patch.rack.Standard)
    (hhands : studio.Hands task id) {tasks : List Task}
    (hallowed : studio.AllowsAll (task :: tasks)) :
    (∀ timestamp frames e,
      ((studio.performAll (task :: tasks)).output id timestamp frames).1 = .error e →
        ¬ e.IsInputRange) ∧
    ∀ (player : Player) (play : Play) e, player.output = id →
      (player.play (studio.performAll (task :: tasks)).patch play).1 = .error e →
        ¬ e.IsInputRange := by
  have haccepted := hhands.accepted h hstandard hallowed.1
  have hlater := later_performAll (h.perform task hallowed.1) hallowed.2
  have hend : (studio.performAll (task :: tasks)).patch.rack.Accepted id := haccepted.later hlater
  constructor
  · intro timestamp frames e herror
    exact hend.not_isInputRange herror
  · rintro player play e rfl herror
    rw [Player.play_eq_advance] at herror
    exact Player.not_isInputRange_of_advance hend herror

theorem hands_paired : pairedStudio.Hands (.output 2 5 2) 2 := by
  have hclamped : pairedRequest.clamped = pairedRequest := rfl
  have hok := Rack.fst_output_clamped pairedRequest 2 Player.paired.rack
  rw [hclamped, refresh_paired] at hok
  exact ⟨[], pairedRequest, [], rfl, _, hok⟩

def tasksAfterPan : List Task :=
  [.setAxis 0 1, .recordNode 0 "tone.wav" 1, .parse "Constant output(30000)\nSine output(output)",
    .output 4 0 2]

theorem not_isInputRange_of_hands_paired :
    pairedStudio.Reached ∧ pairedStudio.patch.rack.Standard ∧
      pairedStudio.Hands (.output 2 5 2) 2 ∧
      ∀ e, ((pairedStudio.performAll (.output 2 5 2 :: tasksAfterPan)).output 2 9 4).1 = .error e →
        ¬ e.IsInputRange := by
  have hstandard : pairedStudio.patch.rack.Standard :=
    Rack.Standard.of_wellTyped Player.built_paired.wellTyped
  have hallowed : pairedStudio.AllowsAll (.output 2 5 2 :: tasksAfterPan) :=
    ⟨trivial, trivial, trivial, trivial, trivial, trivial⟩
  obtain ⟨hcalls, -⟩ := not_isInputRange_of_hands reached_paired hstandard hands_paired hallowed
  exact ⟨reached_paired, hstandard, hands_paired, hcalls 9 4⟩

end Studio
end PatchSynth
