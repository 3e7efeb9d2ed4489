import PatchSynth.Proofs.Rack.Cause
import PatchSynth.Proofs.Studio.History

/-!
This module contains the errors that a session can come to and that have to do with files. With
standard nodes only it is those of paths that cannot be recorded to, and of recordings that have no
room left.
-/

namespace PatchSynth
namespace Studio

/--
Whether a task ends with an error. Lines and texts that are refused have it inside of their own.
-/
def Raises (studio : Studio) (task : Task) (e : Error) : Prop :=
  match task with
  | .addLine lineNumber line =>
    let parser : Parser := { patch := studio.patch, lineNumber }
    ∃ error, (parser.addLine studio.registry line).1 = .error error ∧
      error.fault = .instantiate e
  | .parse text => ∃ error, (studio.parse text).1 = .error error ∧ error.fault = .instantiate e
  | .load path =>
    ∃ error, (studio.load path).1 = .error (.parse error) ∧ error.fault = .instantiate e
  | .record name path scaler => (studio.patch.record name path scaler).1 = .error e
  | .recordNode id path scaler => (studio.patch.recordNode id path scaler).1 = .error e
  | .stop id => (studio.patch.rack.stop id).1 = .error e
  | .stopAll => studio.patch.stopAll.1 = .error e
  | .output id timestamp frames => (studio.output id timestamp frames).1 = .error e
  | .start => studio.start.1 = .error e
  | .play play =>
    ∃ player, studio.player = some player ∧ (player.play studio.patch play).1 = .error e
  | .build _ | .insert _ _ | .insertAnonymous _ | .setAxis _ _ | .settle => False

variable {studio : Studio} {task : Task} {id : Nat} {path : String} {scaler : Float32} {e : Error}

theorem addLines_ne_instantiate {parser : Parser} {lines : List (List Char)} {error : ParseError}
    (h : (parser.addLines Registry.standard lines).1 = .error error) :
    error.fault ≠ .instantiate e := by
  induction lines generalizing parser with
  | nil => cases h
  | cons line rest ih =>
    rw [Parser.addLines] at h
    split at h
    next hline =>
      cases h
      exact Parser.addLine_ne_instantiate Registry.total_get? (congrArg Prod.fst hline) e
    next => exact ih h

theorem ne_file_of_record {patch : Patch} (h : (patch.recordNode id path scaler).1 = .error e)
    (cause : FileError) : e ≠ .file cause := by
  rw [Patch.fst_recordNode, Rack.record] at h
  split at h
  next =>
    cases h
    rintro ⟨⟩
  next =>
    split at h
    next => cases h
    next =>
      split at h
      next =>
        cases h
        rintro ⟨⟩
      next => cases h

theorem isFull_of_record {patch : Patch} (h : (patch.recordNode id path scaler).1 = .error e) :
    e.IsFull :=
  Error.isFull_of_ne (ne_file_of_record h)

theorem isFull_of_advance {player : Player} {patch : Patch} (h : patch.rack.WellFormed)
    (hstandard : patch.rack.Standard) {calls : List (Controls × Nat)}
    (herror : (player.advance patch calls).1 = .error e) : e.IsFull := by
  obtain ⟨before, request, houtput⟩ := Player.exists_output_of_advance herror
  exact ((Rack.later_outputs _ before).wellFormed h).isFull_of_output
    (hstandard.of_shape (Rack.shape_outputs _ before)) houtput

theorem Raises.isFull (h : studio.Reached) (hstandard : studio.patch.rack.Standard)
    (hraises : studio.Raises task e) : e.IsFull := by
  have hrack := h.reachable.wellFormed
  have hregistry := h.registry_eq
  cases task with
  | addLine lineNumber line =>
    obtain ⟨error, herror, hfault⟩ := hraises
    rw [hregistry] at herror
    exact absurd hfault (Parser.addLine_ne_instantiate Registry.total_get? herror e)
  | parse text =>
    obtain ⟨error, herror, hfault⟩ := hraises
    unfold parse Patch.parse Parser.parse at herror
    rw [hregistry] at herror
    exact absurd hfault (addLines_ne_instantiate herror)
  | load path =>
    obtain ⟨error, herror, hfault⟩ := hraises
    unfold load Patch.load at herror
    dsimp only at herror
    split at herror
    next => cases herror
    next text _ =>
      cases hparse : (studio.patch.parse studio.registry text).1 with
      | ok _ =>
        simp only [hparse] at herror
        cases herror
      | error found =>
        simp only [hparse] at herror
        cases herror
        unfold Patch.parse Parser.parse at hparse
        rw [hregistry] at hparse
        exact absurd hfault (addLines_ne_instantiate hparse)
  | record name path scaler =>
    have herror : (studio.patch.record name path scaler).1 = .error e := hraises
    unfold Patch.record at herror
    split at herror
    next => exact isFull_of_record herror
    next =>
      cases herror
      apply Error.isFull_of_ne
      rintro cause ⟨⟩
  | recordNode id path scaler => exact isFull_of_record hraises
  | stop id =>
    have herror : (studio.patch.rack.stop id).1 = .error e := hraises
    rw [hrack.fst_stop] at herror
    cases herror
  | stopAll =>
    have herror : (Rack.forAll (fun id rack => rack.stop id) (studio.patch.table.entries.map (·.2))
        studio.patch.rack).1 = .error e := hraises
    rw [hrack.fst_forAll_stop] at herror
    cases herror
  | output id timestamp frames =>
    have herror : (studio.patch.rack.output
        { timestamp, frames, controls := studio.controls } id).1 = .error e := hraises
    exact hrack.isFull_of_output hstandard herror
  | start =>
    have herror : studio.start.1 = .error e := hraises
    unfold start Player.new at herror
    apply Error.isFull_of_ne
    rintro cause rfl
    split at herror
    next hnew =>
      split at hnew
      next =>
        cases hnew
        cases herror
      next =>
        split at hnew
        next => cases hnew
        next =>
          cases hnew
          cases herror
    next => cases herror
  | play play =>
    obtain ⟨player, -, herror⟩ := hraises
    rw [Player.play_eq_advance] at herror
    exact isFull_of_advance hrack hstandard herror
  | _ => cases hraises

end Studio
end PatchSynth
