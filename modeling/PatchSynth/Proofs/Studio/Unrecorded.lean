import PatchSynth.Proofs.Rack.Unrecorded
import PatchSynth.Proofs.Studio.Building
import PatchSynth.Proofs.Studio.Cause
import PatchSynth.Proofs.Studio.Recording

/-!
This module contains that recording is not to be heard. In a session that plays, recordings are
started and stopped at any moment; as long as no file fails, all blocks, errors, timestamps and the
clock are those of the session in which nothing is recorded.
-/

namespace PatchSynth

def Error.IsFile (e : Error) : Prop :=
  ∃ cause, e = .file cause

theorem Rack.carries_unrecorded (id : Nat) :
    Carries (fun rack other => other.unrecorded = rack.unrecorded) Error.IsFile id := by
  intro rack other request hsame hrun htwin
  have hplain := output_unrecorded fun cause herror => hrun _ herror ⟨cause, rfl⟩
  have hplain' := output_unrecorded fun cause herror => htwin _ herror ⟨cause, rfl⟩
  rw [hsame, hplain] at hplain'
  exact ⟨(congrArg Prod.fst hplain').symm, (congrArg Prod.snd hplain').symm⟩

namespace Studio

def Task.isRecording : Task → Bool
  | .record _ _ _ | .recordNode _ _ _ | .stop _ | .stopAll => true
  | _ => false

def Task.isPlaying : Task → Bool
  | .output _ _ _ | .play _ | .setAxis _ _ => true
  | _ => false

/--
What is there to be noticed after a task that plays: its result, the clock of the player, and all
nodes with their blocks and timestamps, but not whether they are being recorded.
-/
structure Noticed where
  reply : Reply
  clock : Option Nat
  nodes : Array Node

def notice (studio : Studio) : List Task → List Noticed
  | [] => []
  | task :: rest =>
    let next := studio.perform task
    if task.isRecording then
      next.notice rest
    else
      { reply := studio.reply task
        clock := next.player.map (·.clock)
        nodes := next.patch.rack.unrecorded.nodes }
        :: next.notice rest

/--
Whether no task fails because of a file that is written to.
-/
def FilesHold (studio : Studio) : List Task → Prop
  | [] => True
  | task :: rest =>
    (∀ cause, ¬ studio.Raises task (.file cause)) ∧ (studio.perform task).FilesHold rest

structure Unheard (studio other : Studio) : Prop where
  player_eq : other.player = studio.player
  controls_eq : other.controls = studio.controls
  unrecorded_eq : other.patch.rack.unrecorded = studio.patch.rack.unrecorded

variable {studio other quiet busy : Studio} {task : Task} {tasks : List Task}

namespace Unheard

theorem refl (studio : Studio) : Unheard studio studio :=
  ⟨rfl, rfl, rfl⟩

theorem trans {last : Studio} (h : Unheard studio other) (hlast : Unheard other last) :
    Unheard studio last :=
  ⟨hlast.player_eq.trans h.player_eq, hlast.controls_eq.trans h.controls_eq,
    hlast.unrecorded_eq.trans h.unrecorded_eq⟩

theorem perform_of_isRecording (studio : Studio) (h : task.isRecording = true) :
    Unheard studio (studio.perform task) := by
  cases task with
  | record name path scaler =>
    refine ⟨rfl, rfl, ?_⟩
    show (studio.patch.record name path scaler).2.rack.unrecorded = _
    unfold Patch.record
    split
    next id _ => rw [Patch.rack_recordNode, Rack.unrecorded_record]
    next => rfl
  | recordNode id path scaler =>
    refine ⟨rfl, rfl, ?_⟩
    show (studio.patch.recordNode id path scaler).2.rack.unrecorded = _
    rw [Patch.rack_recordNode, Rack.unrecorded_record]
  | stop id => exact ⟨rfl, rfl, Rack.unrecorded_stop _ id⟩
  | stopAll =>
    refine ⟨rfl, rfl, ?_⟩
    exact Rack.unrecorded_forAll_stop _ _
  | _ => cases h

theorem perform_of_isPlaying (h : Unheard quiet busy) (hplaying : task.isPlaying = true)
    (hquiet : ∀ cause, ¬ quiet.Raises task (.file cause))
    (hbusy : ∀ cause, ¬ busy.Raises task (.file cause)) :
    busy.reply task = quiet.reply task ∧ Unheard (quiet.perform task) (busy.perform task) := by
  cases task with
  | output id timestamp frames =>
    have hrun : Avoids Error.IsFile (quiet.output id timestamp frames).1 := by
      rintro e herror ⟨cause, rfl⟩
      exact hquiet cause herror
    have htwin : Avoids Error.IsFile (busy.output id timestamp frames).1 := by
      rintro e herror ⟨cause, rfl⟩
      exact hbusy cause herror
    rw [output, h.controls_eq] at htwin
    obtain ⟨hfst, hsame⟩ := Rack.carries_unrecorded id quiet.patch.rack busy.patch.rack
      { timestamp, frames, controls := quiet.controls } h.unrecorded_eq hrun htwin
    have hreply : busy.reply (.output id timestamp frames)
        = quiet.reply (.output id timestamp frames) := by
      simp only [reply, output, h.controls_eq, hfst]
    refine ⟨hreply, h.player_eq, h.controls_eq, ?_⟩
    rw [rack_perform_output, rack_perform_output, h.controls_eq]
    exact hsame
  | play play =>
    cases hplayer : quiet.player with
    | none =>
      have hnone : busy.player = none := by rw [h.player_eq, hplayer]
      rw [Alongside.perform_play_of_none hplayer,
        Alongside.perform_play_of_none hnone]
      exact ⟨by simp only [reply, hplayer, hnone], h⟩
    | some player =>
      have hsome : busy.player = some player := by rw [h.player_eq, hplayer]
      have hrun : Avoids Error.IsFile (player.play quiet.patch play).1 := by
        rintro e herror ⟨cause, rfl⟩
        exact hquiet cause ⟨player, hplayer, herror⟩
      have htwin : Avoids Error.IsFile (player.play busy.patch play).1 := by
        rintro e herror ⟨cause, rfl⟩
        exact hbusy cause ⟨player, hsome, herror⟩
      obtain ⟨hfst, hnext, hsame⟩ :=
        Player.alike_reply (Rack.carries_unrecorded player.output) h.unrecorded_eq hrun htwin
      rw [Player.snd_reply, Player.snd_reply] at hnext hsame
      rw [Alongside.perform_play_of_some hplayer, Alongside.perform_play_of_some hsome]
      refine ⟨by simp only [reply, hplayer, hsome, hfst], congrArg some hnext, h.controls_eq, hsame⟩
  | setAxis axis value =>
    refine ⟨rfl, h.player_eq, ?_, h.unrecorded_eq⟩
    simp only [perform, setAxis, h.controls_eq]
  | _ => cases hplaying

end Unheard

theorem Unheard.notice_eq (h : Unheard quiet busy)
    (htasks : ∀ task ∈ tasks, task.isRecording = true ∨ task.isPlaying = true)
    (hbusy : busy.FilesHold tasks)
    (hquiet : quiet.FilesHold (tasks.filter fun task => !task.isRecording)) :
    busy.notice tasks = quiet.notice (tasks.filter fun task => !task.isRecording) ∧
      Unheard (quiet.performAll (tasks.filter fun task => !task.isRecording))
        (busy.performAll tasks) := by
  -- A task that records moves the busy side only, and one that plays moves both.
  induction tasks generalizing quiet busy with
  | nil => exact ⟨rfl, h⟩
  | cons task rest ih =>
    have hrest : ∀ task ∈ rest, task.isRecording = true ∨ task.isPlaying = true :=
      fun task hmem => htasks task (List.mem_cons_of_mem _ hmem)
    obtain ⟨hfirst, hlater⟩ := hbusy
    obtain hrecording | hplaying := htasks task (List.mem_cons_self ..)
    · rw [List.filter_cons_of_neg (by simp [hrecording])] at hquiet ⊢
      rw [notice, if_pos hrecording]
      exact ih (h.trans (Unheard.perform_of_isRecording busy hrecording)) hrest hlater hquiet
    · have hrecording : task.isRecording = false := by
        cases task <;> first | rfl | cases hplaying
      rw [List.filter_cons_of_pos (by simp [hrecording])] at hquiet ⊢
      obtain ⟨hreply, hnext⟩ := h.perform_of_isPlaying hplaying hquiet.1 hfirst
      obtain ⟨hnoticed, hlast⟩ := ih hnext hrest hlater hquiet.2
      refine ⟨?_, hlast⟩
      simp only [notice, hrecording, hreply, hnext.player_eq, hnext.unrecorded_eq, hnoticed]

/--
Recording only listens. Wherever recordings are started and stopped in a session, be they refused or
not, all that is played comes out as it does without: blocks, errors, timestamps and the clock. Only
a file that fails could be noticed.
-/
theorem notice_of_recording
    (htasks : ∀ task ∈ tasks, task.isRecording = true ∨ task.isPlaying = true)
    (hfiles : studio.FilesHold tasks)
    (hplain : studio.FilesHold (tasks.filter fun task => !task.isRecording)) :
    studio.notice tasks = studio.notice (tasks.filter fun task => !task.isRecording) ∧
      (studio.performAll tasks).patch.rack.unrecorded
        = (studio.performAll (tasks.filter fun task => !task.isRecording)).patch.rack.unrecorded ∧
      (studio.performAll tasks).player
        = (studio.performAll (tasks.filter fun task => !task.isRecording)).player := by
  obtain ⟨hnoticed, hlast⟩ := (Unheard.refl studio).notice_eq htasks hfiles hplain
  exact ⟨hnoticed, hlast.unrecorded_eq, hlast.player_eq⟩

theorem notice_of_recording_paired :
    pairedStudio.FilesHold [.record "output" "a" Pcm.recordingScaler, .output 2 5 2, .stopAll] ∧
      pairedStudio.FilesHold [.output 2 5 2] ∧
      taped = pairedStudio.perform (.record "output" "a" Pcm.recordingScaler) ∧
      taped.patch.rack.isRecording 2 = true ∧
      pairedStudio.notice [.record "output" "a" Pcm.recordingScaler, .output 2 5 2, .stopAll]
        = pairedStudio.notice [.output 2 5 2] := by
  have houtput : ∀ {studio : Studio}, studio.controls = {} →
      (studio.patch.rack.refresh pairedRequest 2).1 = .ok () →
        ∀ cause, ¬ studio.Raises (.output 2 5 2) (.file cause) := by
    intro studio hcontrols hok cause hraises
    have hresult := congrArg Prod.fst
      (output_eq studio 2 5 2 (by rw [hcontrols]; rfl : pairedRequest = _))
    rw [hok] at hresult
    cases hresult.symm.trans hraises
  have hstop : ∀ cause, ¬ (taped.perform (.output 2 5 2)).Raises .stopAll (.file cause) := by
    intro cause hraises
    have hlast := (reached_taped.perform (.output 2 5 2) trivial).reachable.wellFormed
    have hok :=
      hlast.fst_forAll_stop ((taped.perform (.output 2 5 2)).patch.table.entries.map (·.2))
    cases hok.symm.trans hraises
  have hrecord : ∀ cause, ¬ pairedStudio.Raises
      (.record "output" "a" Pcm.recordingScaler) (.file cause) := by
    intro cause hraises
    have hname : pairedStudio.patch.table.get? "output" = some 2 := by decide
    simp only [Raises, Patch.record, hname] at hraises
    exact ne_file_of_record hraises cause rfl
  have hfiles : pairedStudio.FilesHold
      [.record "output" "a" Pcm.recordingScaler, .output 2 5 2, .stopAll] :=
    ⟨hrecord, houtput rfl refresh_taped, hstop, trivial⟩
  have hplain : pairedStudio.FilesHold [.output 2 5 2] := ⟨houtput rfl refresh_paired, trivial⟩
  have htasks : ∀ task ∈ [.record "output" "a" Pcm.recordingScaler, .output 2 5 2, .stopAll],
      Task.isRecording task = true ∨ task.isPlaying = true := by
    decide
  refine ⟨hfiles, hplain, rfl, ?_, (notice_of_recording htasks hfiles hplain).1⟩
  rw [Rack.isRecording_eq, fileOf_taped]
  rfl

end Studio
end PatchSynth
