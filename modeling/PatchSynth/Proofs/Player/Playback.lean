import PatchSynth.Proofs.Player.Pcm
import PatchSynth.Proofs.Player.Regroup

/-!
This module contains that what is played and what is recorded agree: the samples that a player
leaves in buffers are the ones that a recorder of the output writes to its file at the same scale.
-/

namespace PatchSynth

namespace Pcm

theorem take_overlay (block : Block) (out : Array Int16) :
    (overlay block out).toList.take block.size = block.toList.map (ofSample playbackScaler) := by
  rw [overlay, Array.toList_append, Array.toList_map]
  exact List.take_left' (by simp)

end Pcm

namespace Player

def renderPcms (player : Player) :
    List (Controls × Array Int16) → Patch → List (Except Error Nat × Array Int16) × Player × Patch
  | [], patch => ([], player, patch)
  | (controls, out) :: rest, patch =>
    let (result, out, player, patch) := player.renderPcm controls out patch
    let (results, player, patch) := player.renderPcms rest patch
    ((result, out) :: results, player, patch)

def pcmCalls (calls : List (Controls × Array Int16)) : List (Controls × Nat) :=
  calls.map fun (controls, out) => (controls, framesFor out.size)

/--
Whether a patch is what a text makes of an empty one over some files, with a player for it and its
takes being recorded to files of their own. The player may be made before or after the recorders are
attached.
-/
structure Attaches (text : String) (takes : List Take) (player : Player) (patch : Patch) :
    Prop where
  ways : (takes.map Take.way).Nodup
  steps : ∃ files parsed,
    Patch.parse { rack := { files } } Registry.standard text = (.ok (), parsed) ∧
      ((∃ recorded, parsed.recordAll takes = (.ok (), recorded) ∧
          Player.new recorded = (.ok player, patch)) ∨
        ∃ opened, Player.new parsed = (.ok player, opened) ∧
          opened.recordAll takes = (.ok (), patch))

variable {text : String} {takes : List Take} {player : Player} {patch : Patch}
  {controls : Controls} {frames : Nat} {block : Block} {out : Array Int16}
  {calls : List (Controls × Array Int16)} {written : List (Nat × Array Int16)}

theorem Opens.attaches (h : Opens text takes player patch) : Attaches text takes player patch := by
  obtain ⟨files, parsed, recorded, hparse, hrecord, hplayer⟩ := h.steps
  exact ⟨h.ways, files, parsed, hparse, Or.inl ⟨recorded, hrecord, hplayer⟩⟩

theorem Attaches.exists_recordAll (h : Attaches text takes player patch) :
    ∃ parsed before recorded : Patch, parsed.Built ∧ before.rack = parsed.rack ∧
      before.recordAll takes = (.ok (), recorded) ∧
      patch.rack = recorded.rack ∧ patch.table = recorded.table ∧
      parsed.rack.isStereo player.output = true := by
  obtain ⟨files, parsed, hparse, hsteps⟩ := h.steps
  have hbuilt := (Patch.Built.empty files).parse text
  rw [hparse] at hbuilt
  obtain ⟨recorded, hrecord, hplayer⟩ | ⟨opened, hplayer, hrecord⟩ := hsteps
  · refine ⟨parsed, parsed, recorded, hbuilt, rfl, hrecord, ?_, ?_, ?_⟩
    · rw [← rack_new recorded, hplayer]
    · rw [← table_new recorded, hplayer]
    · have hnew : (Player.new recorded).1 = .ok player := by rw [hplayer]
      obtain ⟨output, -, hstereo, rfl⟩ := fst_new_eq_ok_iff.1 hnew
      rw [← Rack.isStereo_of_shape (Patch.shape_recordAll hrecord)]
      exact hstereo
  · refine ⟨parsed, opened, patch, hbuilt, ?_, hrecord, rfl, rfl, ?_⟩
    · rw [← rack_new parsed, hplayer]
    · have hnew : (Player.new parsed).1 = .ok player := by rw [hplayer]
      obtain ⟨output, -, hstereo, rfl⟩ := fst_new_eq_ok_iff.1 hnew
      exact hstereo

theorem Attaches.ready (h : Attaches text takes player patch) :
    patch.rack.WellFormed ∧ patch.rack.Unplayed ∧ patch.rack.Apart [] ∧
      patch.rack.isStereo player.output = true ∧
      ∀ id, patch.rack.tagOf id
        = (patch.takeOf takes id).map fun take => (take.way, take.scaler) := by
  obtain ⟨parsed, before, recorded, hbuilt, hbefore, hrecord, hrack, htable, hstereo⟩ :=
    h.exists_recordAll
  have hunrecorded := hbuilt.unrecorded
  rw [← hbefore] at hstereo hunrecorded
  rw [hrack]
  refine ⟨?_, ?_, ?_, ?_, ?_⟩
  · apply Patch.wellFormed_recordAll hrecord
    rw [hbefore]
    exact hbuilt.reachable.wellFormed
  · apply Patch.unplayed_recordAll hrecord
    rw [hbefore]
    exact hbuilt.unplayed
  · exact Patch.apart_recordAll hrecord h.ways (Rack.apart_of_unrecorded hunrecorded _)
  · rw [Rack.isStereo_of_shape (Patch.shape_recordAll hrecord), hstereo]
  · intro id
    have htakeOf : patch.takeOf takes id = before.takeOf takes id := by
      rw [Patch.takeOf, Patch.takeOf, htable, Patch.table_recordAll hrecord]
    rw [Patch.tagOf_recordAll hrecord, Rack.tagOf_of_unrecorded hunrecorded, htakeOf]
    rfl

theorem advance_of_render (hblock : (player.render controls frames patch).1 = .ok block)
    (rest : List (Controls × Nat)) :
    player.advance patch ((controls, frames) :: rest)
      = (player.render controls frames patch).2.1.advance
          (player.render controls frames patch).2.2 rest := by
  have hrender : player.render controls frames patch
      = (.ok block, (player.render controls frames patch).2) := by
    rw [← hblock]
  rw [advance, hrender]

theorem blocksOf_of_render (hblock : (player.render controls frames patch).1 = .ok block)
    (rest : List (Controls × Nat)) :
    player.blocksOf player.output patch ((controls, frames) :: rest)
      = block :: (player.render controls frames patch).2.1.blocksOf
          (player.render controls frames patch).2.1.output
          (player.render controls frames patch).2.2 rest := by
  have hhead := render_of_refresh (refresh_of_render hblock)
  rw [hblock, Except.ok.injEq] at hhead
  rw [hhead]
  rfl

theorem snd_renderPcms_cons (controls : Controls) (out : Array Int16)
    (calls : List (Controls × Array Int16)) :
    (player.renderPcms ((controls, out) :: calls) patch).2
      = ((player.render controls (framesFor out.size) patch).2.1.renderPcms calls
          (player.render controls (framesFor out.size) patch).2.2).2 := by
  rw [renderPcms, ← snd_renderPcm]

theorem exists_of_renderPcms (hrack : patch.rack.WellFormed)
    (hstereo : patch.rack.isStereo player.output = true)
    (hwritten : (player.renderPcms ((controls, out) :: calls) patch).1
      = written.map fun (frames, out) => (.ok frames, out)) :
    ∃ block frames later,
      (player.render controls (framesFor out.size) patch).1 = .ok block ∧
      block.size = 2 * frames ∧ written = (frames, Pcm.overlay block out) :: later ∧
      ((player.render controls (framesFor out.size) patch).2.1.renderPcms calls
          (player.render controls (framesFor out.size) patch).2.2).1
        = later.map fun (frames, out) => (.ok frames, out) := by
  cases written with
  | nil => cases hwritten
  | cons first later =>
    obtain ⟨frames, filled⟩ := first
    rw [renderPcms, List.map_cons, List.cons.injEq, Prod.mk.injEq] at hwritten
    obtain ⟨⟨hfirst, hfilled⟩, hlater⟩ := hwritten
    obtain ⟨block, hblock, hsize, hplayed⟩ := exists_of_renderPcm hrack hstereo hfirst
    rw [hplayed] at hfilled hlater
    dsimp only at hfilled hlater
    exact ⟨block, frames, later, hblock, hsize, by rw [hfilled], hlater⟩

theorem blocksOf_renderPcms (hrack : patch.rack.WellFormed)
    (hstereo : patch.rack.isStereo player.output = true)
    (hwritten : (player.renderPcms calls patch).1
      = written.map fun (frames, out) => (.ok frames, out)) :
    player.advance patch (pcmCalls calls) = (.ok (), (player.renderPcms calls patch).2) ∧
      (written.flatMap fun (frames, out) => out.toList.take (2 * frames))
        = ((player.blocksOf player.output patch (pcmCalls calls)).flatMap Array.toList).map
            (Pcm.ofSample Pcm.playbackScaler) := by
  induction calls generalizing player patch written with
  | nil =>
    rw [renderPcms, eq_comm, List.map_eq_nil_iff] at hwritten
    subst hwritten
    exact ⟨rfl, rfl⟩
  | cons call rest ih =>
    obtain ⟨controls, out⟩ := call
    obtain ⟨block, frames, later, hblock, hsize, rfl, hlater⟩ :=
      exists_of_renderPcms hrack hstereo hwritten
    obtain ⟨hadvance, hrest⟩ :=
      ih (wellFormed_render hrack controls _) (isStereo_render hstereo controls _) hlater
    rw [pcmCalls, List.map_cons, ← pcmCalls]
    constructor
    · rw [advance_of_render hblock, hadvance, snd_renderPcms_cons]
    · rw [blocksOf_of_render hblock, List.flatMap_cons, List.flatMap_cons, List.map_append, ← hrest]
      dsimp only
      rw [← hsize, Pcm.take_overlay]

/--
Playback and recording agree: after the output was played into buffers and all went well, the file
of its recording holds a header and the bytes of the samples in the buffers, if it was recorded at
the scale of the playback from the start.
-/
theorem recording_of_renderPcms (h : Attaches text takes player patch) {take : Take}
    (htake : patch.takeOf takes player.output = some take)
    (hscaler : take.scaler = Pcm.playbackScaler)
    (hwritten : (player.renderPcms calls patch).1
      = written.map fun (frames, out) => (.ok frames, out)) :
    let played := (player.renderPcms calls patch).2.2
    let data := written.flatMap fun (frames, out) =>
      (out.toList.take (2 * frames)).flatMap Pcm.bytes
    ∃ bytes : Bytes, bytes.toList = Wav.header 2 data.length ++ data ∧
      played.rack.files.contents.lookup take.way = some bytes ∧
      played.close.contents.lookup take.way = some bytes := by
  intro played data
  obtain ⟨hrack, hunplayed, hapart, hstereo, htag⟩ := h.ready
  have htag := htag player.output
  rw [htake, Option.map_some, hscaler] at htag
  obtain ⟨hadvance, hblocks⟩ := blocksOf_renderPcms hrack hstereo hwritten
  obtain ⟨data', bytes, hbytes, hclosed, hlist, hread, -⟩ :=
    recording_of_advance hrack hapart hunplayed hadvance htag
  have hdata : data' = data := by
    rw [hread (Rack.Reaches.refl _ _)]
    simp only [data]
    rw [← List.flatMap_map, ← hblocks, List.flatMap_assoc]
  obtain ⟨node, hnode, hdevice⟩ := Rack.exists_of_isStereo hstereo
  have hchannels : patch.rack.channelsOf player.output = 2 := by
    rw [Rack.channelsOf, hnode]
    dsimp only
    rw [Device.channels, hdevice]
    rfl
  rw [hchannels, hdata] at hlist
  exact ⟨bytes, hlist, hbytes, hclosed⟩

theorem exists_written (hrack : patch.rack.WellFormed)
    (hstereo : patch.rack.isStereo player.output = true) (calls : List (Controls × Array Int16))
    (hadvance : (player.advance patch (pcmCalls calls)).1 = .ok ()) :
    ∃ written : List (Nat × Array Int16), (player.renderPcms calls patch).1
      = written.map fun (frames, out) => (.ok frames, out) := by
  induction calls generalizing player patch with
  | nil => exact ⟨[], rfl⟩
  | cons call rest ih =>
    obtain ⟨controls, out⟩ := call
    have hrun : player.advance patch ((controls, framesFor out.size) :: pcmCalls rest)
        = (.ok (), (player.advance patch ((controls, framesFor out.size) :: pcmCalls rest)).2) := by
      rw [← hadvance]
      rfl
    obtain ⟨hok, hrest⟩ := advance_cons hrun
    obtain ⟨written, hwritten⟩ := ih (wellFormed_render hrack controls _)
      (isStereo_render hstereo controls _) (by rw [hrest])
    have hplayed := renderPcm_of_ok hrack hstereo (render_of_refresh hok)
    refine ⟨(framesFor out.size, (player.renderPcm controls out patch).2.1) :: written, ?_⟩
    rw [renderPcms, hplayed, List.map_cons, ← hwritten]

def unevenCalls : List (Controls × Array Int16) :=
  [({}, #[1, 2, 3, 4, 5]), ({}, #[]), ({}, #[6])]

def outputTake : Take :=
  { name := outputName, path := "a", scaler := Pcm.playbackScaler }

theorem recording_of_renderPcms_uneven :
    ∃ (patch : Patch) (written : List (Nat × Array Int16)) (bytes : Bytes),
      let data := written.flatMap fun (frames, out) =>
        (out.toList.take (2 * frames)).flatMap Pcm.bytes
      Attaches pairedText [outputTake] { output := 2 } patch ∧
      patch.takeOf [outputTake] 2 = some outputTake ∧
      (renderPcms { output := 2 } unevenCalls patch).1
        = written.map (fun (frames, out) => (.ok frames, out)) ∧
      bytes.toList = Wav.header 2 data.length ++ data ∧
      (renderPcms { output := 2 } unevenCalls patch).2.2.close.contents.lookup outputTake.way
        = some bytes := by
  have htarget : Files.target {} outputTake.path = .ok ["a"] := by cbv
  obtain ⟨patch, hopens⟩ := exists_opens_output rfl htarget
  have hattaches := hopens.attaches
  have htake : patch.takeOf [outputTake] 2 = some outputTake := by
    obtain ⟨-, htable, -⟩ := hopens.output_eq
    exact List.find?_cons_of_pos (decide_eq_true htable)
  obtain ⟨hrack, -, -, hstereo, -⟩ := hattaches.ready
  obtain ⟨blocks, hblocks⟩ : ∃ blocks : List Block,
      (renders { output := 2 } (callsOf {} [2, 0, 0]) patch).1 = blocks.map .ok :=
    renders_paired hopens (by decide) (hopens.hasRoom (by decide))
  obtain ⟨written, hwritten⟩ :=
    exists_written hrack hstereo unevenCalls (advance_of_renders hblocks)
  obtain ⟨bytes, hlist, -, hclosed⟩ := recording_of_renderPcms hattaches htake rfl hwritten
  exact ⟨patch, written, bytes, hattaches, htake, hwritten, hlist, hclosed⟩

end Player
end PatchSynth
