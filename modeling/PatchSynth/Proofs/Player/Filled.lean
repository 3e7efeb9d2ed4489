import PatchSynth.Proofs.Patch.Parse
import PatchSynth.Proofs.Signal.Player

/-!
This module contains that every block of a run fills each node that the output reads exactly once,
and no other.
-/

namespace PatchSynth
namespace Player

variable {player last : Player} {patch played : Patch}

/--
Every block of a run that succeeds fills the output and each node that it reads, directly or through
others, exactly once, however often the node is read. What was recorded of such a node are its
blocks in order. All other nodes and their recordings are left alone.
-/
theorem filled_of_run (hrack : patch.rack.Reachable) (hunplayed : patch.rack.Unplayed)
    (hplayer : (Player.new patch).1 = .ok player) {plays : List Play}
    (hrun : player.run (Player.new patch).2 plays = (.ok (), last, played))
    (hblocks : plays.flatMap Play.calls ≠ []) {id : Nat} {before : Node}
    (hbefore : patch.rack.nodes[id]? = some before) :
    ∃ after, played.rack.nodes[id]? = some after ∧
      (patch.rack.Reaches player.output id →
        after.fills = (plays.flatMap Play.calls).length ∧
        after.last = some ((plays.flatMap Play.calls).length - 1) ∧
        ∀ recorder, before.recorder = some recorder →
          ∃ taken, after.recorder = some taken ∧
            recorder.takeAll (player.blocksOf id (Player.new patch).2 (plays.flatMap Play.calls))
              = .ok taken ∧
            (patch.rack.Alone id recorder.file → ∃ channels, taken.Holds played.rack.files channels
              ((player.blocksOf id (Player.new patch).2 (plays.flatMap Play.calls)).flatMap
                recorder.pcm))) ∧
      (¬ patch.rack.Reaches player.output id →
        after.fills = 0 ∧ after.last = none ∧ after.recorder = before.recorder ∧
        ∀ recorder, before.recorder = some recorder →
          patch.rack.Alone id recorder.file → ∃ channels,
            recorder.Holds played.rack.files channels []) := by
  rw [fst_new_eq_ok_iff] at hplayer
  obtain ⟨output, -, -, rfl⟩ := hplayer
  rw [run_eq_advance] at hrun
  have hblank := hrack.blank hunplayed
  obtain ⟨hlast, hfills⟩ := hunplayed id before hbefore
  have hopened : (Player.new patch).2.rack = patch.rack := rack_new patch
  by_cases hreaches : patch.rack.Reaches output id
  · have hstale : before.isStale 0 = true := by simp [Node.isStale, hlast]
    rw [← hopened] at hrack hbefore hreaches
    obtain ⟨after, hafter, hfills', hlast', hrecorded⟩ :=
      filled_of_advance hrack.wellFormed hrun hreaches hbefore hstale
    rw [hopened] at hbefore hreaches hrecorded
    refine ⟨after, hafter, fun _ => ⟨?_, ?_, ?_⟩, fun h => absurd hreaches h⟩
    · rw [hfills', hfills, Nat.zero_add]
    · rw [hlast' hblocks, Nat.zero_add]
    · intro recorder hrecorder
      obtain ⟨taken, htaken, hafterRecorder, hholds⟩ := hrecorded recorder hrecorder
      refine ⟨taken, hafterRecorder, htaken, fun halone => ?_⟩
      obtain ⟨channels, hempty⟩ := hblank id before recorder hbefore hrecorder
      have hholds := hholds channels [] halone hempty
      rw [List.nil_append] at hholds
      exact ⟨channels, hholds⟩
  · have hreaches' : ¬ (Player.new patch).2.rack.Reaches output id := by
      rw [hopened]
      exact hreaches
    obtain ⟨hnodes, hfiles⟩ := unfilled_of_advance hrun hreaches'
    rw [hopened] at hnodes hfiles
    refine ⟨before, by rw [hnodes, hbefore], fun h => absurd h hreaches,
      fun _ => ⟨hfills, hlast, rfl, ?_⟩⟩
    intro recorder hrecorder halone
    obtain ⟨channels, hempty⟩ := hblank id before recorder hbefore hrecorder
    exact ⟨channels, hempty.of_lookup_eq
      (hfiles recorder.file halone (Rack.fileOf_eq hbefore hrecorder))⟩

def pairedText : String :=
  "Constant tone(0.5)\nConstant unread(7)\nPan output(tone, tone)"

def paired : Patch :=
  (Patch.parse {} Registry.standard pairedText).2

theorem built_paired : paired.Built :=
  (Patch.Built.empty {}).parse pairedText

theorem tone_paired : paired.rack.shape[0]? = some (.constant 0.5, Range.point 0.5) := by
  rw [Rack.getElem?_shape]
  rfl

theorem unread_paired : paired.rack.shape[1]? = some (.constant 7, Range.point 7) := by
  rw [Rack.getElem?_shape]
  rfl

theorem output_paired : paired.rack.shape[2]? = some (.pan 0 0, (Range.point 0.5).withZero) := by
  rw [Rack.getElem?_shape]
  rfl

theorem size_paired : paired.rack.nodes.size = 3 := rfl

theorem clean_paired {rack : Rack} (h : rack.WellFormed) (hshape : rack.shape = paired.rack.shape)
    (controls : Controls) (frames id : Nat) : rack.Clean controls 0 frames id := by
  obtain ⟨tone, htone, htoneDevice, htoneRange⟩ :=
    Rack.exists_of_getElem?_shape (hshape ▸ tone_paired)
  obtain ⟨unread, hunread, hunreadDevice, hunreadRange⟩ :=
    Rack.exists_of_getElem?_shape (hshape ▸ unread_paired)
  obtain ⟨pan, hpan, hpanDevice, hpanRange⟩ :=
    Rack.exists_of_getElem?_shape (hshape ▸ output_paired)
  have hsignal : rack.signal controls 0 = fun _ => 0.5 := by
    rw [Rack.signal_eq controls h htone, htoneDevice]
    rfl
  obtain _ | _ | _ | id := id
  · have hcontains : (Range.point 0.5).contains 0.5 = true := by decide
    apply Rack.Clean.of_contains htone
    · rw [htoneDevice]
      rfl
    · rw [htoneDevice]
      rfl
    · intro time
      rw [htoneRange, hsignal]
      exact hcontains
  · have hcontains : (Range.point 7).contains 7 = true := by decide
    apply Rack.Clean.of_contains hunread
    · rw [hunreadDevice]
      rfl
    · rw [hunreadDevice]
      rfl
    · intro time
      rw [hunreadRange, Rack.signal_eq controls h hunread, hunreadDevice]
      exact hcontains
  · have hleft : (Range.point 0.5).withZero.contains (Device.panSample 0.5 0.5).1 = true := by
      decide
    have hright : (Range.point 0.5).withZero.contains (Device.panSample 0.5 0.5).2 = true := by
      decide
    have hwithin : (Range.point 0.5).within Range.bipolar = true := by decide
    apply Rack.Clean.of_contains hpan
    · rw [hpanDevice]
      have hrange : rack.rangeOf 0 = Range.point 0.5 := by
        rw [Rack.rangeOf, htone]
        exact htoneRange
      simp [Rack.checkDemands, Device.demands, hrange, hwithin]
    · rw [hpanDevice]
      rfl
    · intro time
      rw [hpanRange, Rack.signal_eq controls h hpan, hpanDevice]
      simp only [Device.map, Device.signal, Rack.tone, hsignal, Signal.interleave]
      split
      · exact hleft
      · exact hright
  · apply Rack.Clean.of_none
    rw [Array.getElem?_eq_none_iff, Rack.size_nodes_of_shape hshape, size_paired]
    omega

def fourBlocks : List Play :=
  [.render {} 2, .renderPcm {} #[0, 0], .runOffline {} 2 1]

theorem calls_fourBlocks : fourBlocks.flatMap Play.calls = callsOf {} [2, 1, 1, 1] := rfl

theorem run_paired :
    ∃ last played,
      run { output := 2 } (Player.new paired).2 fourBlocks = (.ok (), last, played) := by
  have hrack := built_paired.reachable.wellFormed
  have hplayed : (Player.new paired).2.rack.PlayedTo {} 2 0 0 := by
    rw [rack_new]
    exact Rack.PlayedTo.of_unplayed hrack built_paired.wellTyped built_paired.unplayed _ _
  have hok : (run { output := 2 } (Player.new paired).2 fourBlocks).1 = .ok () := by
    rw [run_eq_advance, calls_fourBlocks, advance_ok_iff hplayed]
    · apply Or.inr
      intro id _
      rw [rack_new]
      exact clean_paired hrack rfl {} _ id
    · rw [rack_new, size_paired]
      decide
    · decide
    · rw [rack_new]
      exact built_paired.hasRoom _
  cases hrun : run { output := 2 } (Player.new paired).2 fourBlocks with
  | mk result rest =>
    rw [hrun] at hok
    cases hok
    exact ⟨rest.1, rest.2, rfl⟩

theorem reaches_paired {id : Nat} (h : paired.rack.Reaches 2 id) : id = 2 ∨ id = 0 := by
  obtain ⟨tone, htone, htoneDevice, -⟩ := Rack.exists_of_getElem?_shape tone_paired
  obtain ⟨pan, hpan, hpanDevice, -⟩ := Rack.exists_of_getElem?_shape output_paired
  induction h with
  | refl => exact Or.inl rfl
  | tail _ hread ih =>
    obtain ⟨node, hnode, hmem⟩ := hread
    obtain rfl | rfl := ih
    · rw [hpan] at hnode
      cases hnode
      rw [hpanDevice] at hmem
      apply Or.inr
      simpa [Device.reads, Device.inputs] using hmem
    · rw [htone] at hnode
      cases hnode
      rw [htoneDevice] at hmem
      simp [Device.reads, Device.inputs] at hmem

theorem filled_of_run_paired :
    ∃ last played tone unread, run { output := 2 } (Player.new paired).2 fourBlocks
        = (.ok (), last, played) ∧
      played.rack.nodes[0]? = some tone ∧ tone.fills = 4 ∧ tone.last = some 3 ∧
      played.rack.nodes[1]? = some unread ∧ unread.fills = 0 ∧ unread.last = none := by
  have hplayer : (Player.new paired).1 = .ok { output := 2 } :=
    fst_new_eq_ok_iff.2 ⟨2, rfl, rfl, rfl⟩
  obtain ⟨tone, htone, -, -⟩ := Rack.exists_of_getElem?_shape tone_paired
  obtain ⟨unread, hunread, -, -⟩ := Rack.exists_of_getElem?_shape unread_paired
  obtain ⟨pan, hpan, hpanDevice, -⟩ := Rack.exists_of_getElem?_shape output_paired
  have hreads : paired.rack.Reads 2 0 := by
    refine ⟨pan, hpan, ?_⟩
    simp [hpanDevice, Device.reads, Device.inputs]
  have hapart : ¬ paired.rack.Reaches 2 1 := by
    intro hreaches
    obtain h | h := reaches_paired hreaches <;> cases h
  obtain ⟨last, played, hrun⟩ := run_paired
  have hlength : (fourBlocks.flatMap Play.calls).length = 4 := by
    rw [calls_fourBlocks]
    rfl
  have hblocks : fourBlocks.flatMap Play.calls ≠ [] := by
    intro hnil
    rw [hnil] at hlength
    cases hlength
  obtain ⟨after, hafter, hfilled, -⟩ :=
    filled_of_run built_paired.reachable built_paired.unplayed hplayer hrun hblocks htone
  obtain ⟨left, hleft, -, hunfilled⟩ :=
    filled_of_run built_paired.reachable built_paired.unplayed hplayer hrun hblocks hunread
  obtain ⟨hfills, hlast, -⟩ := hfilled (Relation.ReflTransGen.single hreads)
  obtain ⟨hfills', hlast', -⟩ := hunfilled hapart
  rw [hlength] at hfills hlast
  exact ⟨last, played, after, left, hrun, hafter, hfills, hlast, hleft, hfills', hlast'⟩

end Player
end PatchSynth
