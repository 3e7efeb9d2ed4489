import PatchSynth.Proofs.Player.Filled
import PatchSynth.Proofs.Player.Recording

/-!
This module contains that the sizes of the blocks do not matter: a patch that is played in other
pieces of the same length succeeds or fails as a whole, sounds the same and leaves the same
recordings.
-/

namespace PatchSynth

namespace Rack

variable {rack : Rack} {controls : Controls}

theorem HasRoom.of_unplayed {other : Rack} {frames : Nat} (h : rack.HasRoom frames)
    (hother : other.WellFormed) (hunplayed : other.Unplayed) (hshape : other.shape = rack.shape)
    (hrecording : ∀ id, (other.tagOf id).isSome → (rack.tagOf id).isSome) :
    other.HasRoom frames := by
  -- The recorders of unplayed nodes hold nothing yet, so the room that is left does not depend on
  -- where they lead.
  intro id node recorder hnode hrecorder
  obtain ⟨hlast, -⟩ := hunplayed id node hnode
  have hwritten := ((hother.sound hnode).unplayed hlast).2.2 recorder hrecorder
  have htag : (other.tagOf id).isSome := by
    rw [Option.isSome_iff_exists]
    exact ⟨_, tagOf_eq_some_iff.2 ⟨node, recorder, hnode, hrecorder, rfl⟩⟩
  obtain ⟨tag, htag⟩ := Option.isSome_iff_exists.1 (hrecording id htag)
  obtain ⟨twin, taken, htwin, htaken, -⟩ := tagOf_eq_some_iff.1 htag
  obtain ⟨found, hfound, hdevice, -⟩ := exists_of_shape hshape hnode
  rw [htwin] at hfound
  cases hfound
  have hroom := h id twin taken htwin htaken
  rw [hdevice] at hroom
  omega

end Rack

namespace Player

variable {text : String} {takes other : List Take} {player twin : Player} {patch copy : Patch}
  {controls : Controls}

/--
Whether a patch is what a text makes of an empty one over some files, with its takes being recorded
to files of their own, and a player is ready for it.
-/
structure Opens (text : String) (takes : List Take) (player : Player) (patch : Patch) : Prop where
  ways : (takes.map Take.way).Nodup
  steps : ∃ files parsed recorded,
    Patch.parse { rack := { files } } Registry.standard text = (.ok (), parsed) ∧
      parsed.recordAll takes = (.ok (), recorded) ∧ Player.new recorded = (.ok player, patch)

namespace Opens

theorem exists_parsed (h : Opens text takes player patch) :
    ∃ parsed : Patch, parsed.Built ∧
      parsed.rack.shape = (Patch.parse {} Registry.standard text).2.rack.shape ∧
      parsed.table = (Patch.parse {} Registry.standard text).2.table ∧
      ∃ recorded : Patch, parsed.recordAll takes = (.ok (), recorded) ∧
        Player.new recorded = (.ok player, patch) := by
  -- Two runs parse the text over files of their own. What they have in common is the patch that the
  -- text makes over none.
  obtain ⟨files, parsed, recorded, hparse, hrecord, hplayer⟩ := h.steps
  have hfiles : Patch.parse { rack := { files } } Registry.standard text
      = ((Patch.parse {} Registry.standard text).1,
          (Patch.parse {} Registry.standard text).2.withFiles files) :=
    Patch.parse_withFiles {} files text
  have hparsed : parsed = (Patch.parse {} Registry.standard text).2.withFiles files := by
    rw [hparse] at hfiles
    exact congrArg Prod.snd hfiles
  have hbuilt := (Patch.Built.empty files).parse text
  rw [hparse] at hbuilt
  exact ⟨parsed, hbuilt, by rw [hparsed]; rfl, by rw [hparsed]; rfl, recorded, hrecord, hplayer⟩

theorem built (h : Opens text takes player patch) :
    patch.rack.WellFormed ∧ patch.rack.Unplayed ∧ patch.rack.WellTyped ∧
      patch.rack.shape = (Patch.parse {} Registry.standard text).2.rack.shape := by
  obtain ⟨parsed, hbuilt, hshape, -, recorded, hrecord, hplayer⟩ := h.exists_parsed
  have hrack : patch.rack = recorded.rack := by
    rw [← rack_new recorded, hplayer]
  have hrecorded := Patch.shape_recordAll hrecord
  rw [hrack]
  refine ⟨?_, ?_, ?_, ?_⟩
  · exact Patch.wellFormed_recordAll hrecord hbuilt.reachable.wellFormed
  · exact Patch.unplayed_recordAll hrecord hbuilt.unplayed
  · exact hbuilt.wellTyped.of_shape hrecorded
  · rw [hrecorded, hshape]

theorem table_eq (h : Opens text takes player patch) :
    patch.table = (Patch.parse {} Registry.standard text).2.table := by
  obtain ⟨parsed, -, -, htable, recorded, hrecord, hplayer⟩ := h.exists_parsed
  rw [← htable, ← Patch.table_recordAll hrecord, ← table_new recorded, hplayer]

theorem output_eq (h : Opens text takes player patch) :
    player = { output := player.output } ∧ patch.table.get? outputName = some player.output ∧
      player.output < patch.rack.nodes.size := by
  have htable := h.table_eq
  obtain ⟨-, -, -, hshape⟩ := h.built
  have hsize := Rack.size_nodes_of_shape hshape
  obtain ⟨parsed, hbuilt, hshape', htable', recorded, hrecord, hplayer⟩ := h.exists_parsed
  have hnew : (Player.new recorded).1 = .ok player := by rw [hplayer]
  rw [fst_new_eq_ok_iff] at hnew
  obtain ⟨output, houtput, -, rfl⟩ := hnew
  rw [Patch.table_recordAll hrecord] at houtput
  refine ⟨rfl, ?_, ?_⟩
  · rw [htable, ← htable']
    exact houtput
  · have hlt := hbuilt.named _ _ houtput
    have hsize' := Rack.size_nodes_of_shape hshape'
    dsimp only
    omega

theorem recorded (h : Opens text takes player patch) :
    patch.rack.Apart [] ∧ ∀ id, patch.rack.tagOf id
      = (patch.takeOf takes id).map fun take => (take.way, take.scaler) := by
  have htable := h.table_eq
  obtain ⟨parsed, hbuilt, -, htable', recorded, hrecord, hplayer⟩ := h.exists_parsed
  have hrack : patch.rack = recorded.rack := by
    rw [← rack_new recorded, hplayer]
  have hapart := Rack.apart_of_unrecorded hbuilt.unrecorded (takes.map Take.way)
  rw [hrack]
  refine ⟨Patch.apart_recordAll hrecord h.ways hapart, ?_⟩
  intro id
  have htakeOf : patch.takeOf takes id = parsed.takeOf takes id := by
    rw [Patch.takeOf, Patch.takeOf, htable, htable']
  rw [Patch.tagOf_recordAll hrecord, Rack.tagOf_of_unrecorded hbuilt.unrecorded, htakeOf]
  rfl

theorem playedTo (h : Opens text takes player patch) (controls : Controls) :
    patch.rack.PlayedTo controls player.output 0 player.clock := by
  obtain ⟨hrack, hunplayed, htyped, -⟩ := h.built
  exact Rack.PlayedTo.of_unplayed hrack htyped hunplayed _ _

theorem recording (h : Opens text takes player patch) {last : Player} {played : Patch}
    {calls : List (Controls × Nat)} (hrun : player.advance patch calls = (.ok (), last, played))
    {id : Nat} {take : Take} (htake : patch.takeOf takes id = some take) :
    ∃ (data : List UInt8) (bytes : Bytes),
      played.rack.files.contents.lookup take.way = some bytes ∧
      played.close.contents.lookup take.way = some bytes ∧
      bytes.toList = Wav.header (patch.rack.channelsOf id) data.length ++ data ∧
      (patch.rack.Reaches player.output id →
        data = ((player.blocksOf id patch calls).flatMap Array.toList).flatMap fun sample =>
          Pcm.bytes (Pcm.ofSample take.scaler sample)) ∧
      (¬ patch.rack.Reaches player.output id → data = []) := by
  obtain ⟨hrack, hunplayed, -, -⟩ := h.built
  obtain ⟨hapart, htag⟩ := h.recorded
  have htag := htag id
  rw [htake, Option.map_some] at htag
  exact recording_of_advance hrack hapart hunplayed hrun htag

theorem hasRoom (h : Opens text takes player patch) {frames : Nat}
    (hframes : 2 * frames ≤ Wav.maxSamples) : patch.rack.HasRoom frames := by
  obtain ⟨hrack, hunplayed, -, -⟩ := h.built
  intro id node recorder hnode hrecorder
  obtain ⟨hlast, -⟩ := hunplayed id node hnode
  have hwritten := ((hrack.sound hnode).unplayed hlast).2.2 recorder hrecorder
  have := Nat.mul_le_mul_left frames node.device.channels_le_two
  omega

theorem twin_eq (h : Opens text takes player patch) (hcopy : Opens text other twin copy) :
    twin = player ∧ copy.rack.shape = patch.rack.shape ∧ copy.table = patch.table := by
  obtain ⟨-, -, -, hshape⟩ := h.built
  obtain ⟨-, -, -, hshape'⟩ := hcopy.built
  have htable : copy.table = patch.table := by
    rw [hcopy.table_eq, h.table_eq]
  obtain ⟨hplayer, houtput, -⟩ := h.output_eq
  obtain ⟨htwin, houtput', -⟩ := hcopy.output_eq
  rw [htable, houtput, Option.some.injEq] at houtput'
  refine ⟨?_, ?_, htable⟩
  · rw [htwin, hplayer, houtput']
  · rw [hshape', hshape]

theorem scaler_takeOf_eq (h : Opens text takes player patch) (hcopy : Opens text other twin copy)
    (hsource : takes.map Take.source = other.map Take.source) (id : Nat) :
    (patch.takeOf takes id).map (·.scaler) = (copy.takeOf other id).map (·.scaler) := by
  obtain ⟨-, -, htable⟩ := h.twin_eq hcopy
  have hfind : ∀ (patch : Patch) (takes : List Take), (patch.takeOf takes id).map (·.scaler)
      = ((takes.map Take.source).find? fun source => patch.table.get? source.1 = some id).map
          (·.2) := by
    intro patch takes
    rw [List.find?_map, Option.map_map]
    rfl
  rw [hfind, hfind, hsource, htable]

theorem hasRoom_twin (h : Opens text takes player patch) (hcopy : Opens text other twin copy)
    (hscaler : ∀ id, (patch.takeOf takes id).map (·.scaler) = (copy.takeOf other id).map (·.scaler))
    {frames : Nat} (hroom : patch.rack.HasRoom frames) : copy.rack.HasRoom frames := by
  obtain ⟨-, hshape, -⟩ := h.twin_eq hcopy
  obtain ⟨hrack, hunplayed, -, -⟩ := hcopy.built
  apply hroom.of_unplayed hrack hunplayed hshape
  intro id hrecording
  rw [hcopy.recorded.2, Option.isSome_map] at hrecording
  rw [h.recorded.2, Option.isSome_map]
  have hsome := congrArg Option.isSome (hscaler id)
  rw [Option.isSome_map, Option.isSome_map] at hsome
  rw [hsome]
  exact hrecording

theorem advance_twin_ok_iff (controls : Controls) (h : Opens text takes player patch)
    (hcopy : Opens text other twin copy) {counts sizes : List Nat}
    (hcounts : ∀ frames ∈ counts, frames ≤ maxFrames)
    (hsizes : ∀ frames ∈ sizes, frames ≤ maxFrames) (hempty : counts = [] ↔ sizes = [])
    (hsum : counts.sum = sizes.sum) (hroom : patch.rack.HasRoom counts.sum)
    (hroom' : copy.rack.HasRoom sizes.sum) :
    (player.advance patch (callsOf controls counts)).1 = .ok () ↔
      (twin.advance copy (callsOf controls sizes)).1 = .ok () := by
  obtain ⟨rfl, hshape, -⟩ := h.twin_eq hcopy
  obtain ⟨-, -, hroot⟩ := h.output_eq
  obtain ⟨-, -, hroot'⟩ := hcopy.output_eq
  rw [advance_ok_iff (h.playedTo controls) hroot hcounts hroom,
    advance_ok_iff (hcopy.playedTo controls) hroot' hsizes hroom']
  simp only [Rack.reaches_of_shape hshape, Rack.clean_of_shape hshape, hempty, hsum]

theorem blocksOf_twin_eq (controls : Controls) (h : Opens text takes player patch)
    (hcopy : Opens text other twin copy) {counts sizes : List Nat}
    (hcounts : ∀ frames ∈ counts, frames ≤ maxFrames)
    (hsizes : ∀ frames ∈ sizes, frames ≤ maxFrames) (hsum : counts.sum = sizes.sum)
    (hroom : patch.rack.HasRoom counts.sum) (hroom' : copy.rack.HasRoom sizes.sum)
    (hplay : (player.advance patch (callsOf controls counts)).1 = .ok ())
    (hreplay : (twin.advance copy (callsOf controls sizes)).1 = .ok ()) {id : Nat}
    (hreaches : patch.rack.Reaches player.output id) :
    (player.blocksOf id patch (callsOf controls counts)).flatMap Array.toList
      = (twin.blocksOf id copy (callsOf controls sizes)).flatMap Array.toList := by
  obtain ⟨rfl, hshape, -⟩ := h.twin_eq hcopy
  have hreaches' : copy.rack.Reaches twin.output id := by
    rw [Rack.reaches_of_shape hshape]
    exact hreaches
  rw [blocksOf_eq_window (h.playedTo controls) hcounts hroom hplay hreaches,
    blocksOf_eq_window (hcopy.playedTo controls) hsizes hroom' hreplay hreaches',
    Rack.channelsOf_of_shape hshape, Rack.signal_of_shape hshape, hsum]

theorem recording_twin_eq (h : Opens text takes player patch) (hcopy : Opens text other twin copy)
    {calls recalls : List (Controls × Nat)}
    (hplay : (player.advance patch calls).1 = .ok ())
    (hreplay : (twin.advance copy recalls).1 = .ok ()) {id : Nat} {take retake : Take}
    (hsame : patch.rack.Reaches player.output id →
      (player.blocksOf id patch calls).flatMap Array.toList
        = (twin.blocksOf id copy recalls).flatMap Array.toList)
    (htake : patch.takeOf takes id = some take) (hretake : copy.takeOf other id = some retake)
    (hscale : take.scaler = retake.scaler) :
    ∃ bytes : Bytes,
      let played := (player.advance patch calls).2.2
      let replayed := (twin.advance copy recalls).2.2
      played.rack.files.contents.lookup take.way = some bytes ∧
      replayed.rack.files.contents.lookup retake.way = some bytes ∧
      played.close.contents.lookup take.way = some bytes ∧
      replayed.close.contents.lookup retake.way = some bytes := by
  obtain ⟨rfl, hshape, -⟩ := h.twin_eq hcopy
  have hrun : twin.advance patch calls = (.ok (), (twin.advance patch calls).2) := by
    rw [← hplay]
  have hrerun : twin.advance copy recalls = (.ok (), (twin.advance copy recalls).2) := by
    rw [← hreplay]
  obtain ⟨data, bytes, hbytes, hclosed, hlist, hread, hunread⟩ := h.recording hrun htake
  obtain ⟨data', bytes', hbytes', hclosed', hlist', hread', hunread'⟩ :=
    hcopy.recording hrerun hretake
  rw [Rack.reaches_of_shape hshape] at hread' hunread'
  have hdata : data = data' := by
    by_cases hreaches : patch.rack.Reaches twin.output id
    · rw [hread hreaches, hread' hreaches, hsame hreaches, hscale]
    · -- Nobody plays the node, so that its file holds a header only.
      rw [hunread hreaches, hunread' hreaches]
  have heq : bytes' = bytes := by
    rw [← Array.toList_inj, hlist', hlist, hdata, Rack.channelsOf_of_shape hshape]
  subst heq
  exact ⟨bytes', hbytes, hbytes', hclosed, hclosed'⟩

end Opens

theorem eq_nil_of_sum_eq_zero {counts : List Nat} (h : ∀ frames ∈ counts, 1 ≤ frames)
    (hsum : counts.sum = 0) : counts = [] := by
  cases counts with
  | nil => rfl
  | cons frames rest =>
    have hframes := h frames (List.mem_cons_self ..)
    rw [List.sum_cons] at hsum
    omega

theorem eq_nil_iff_of_sum_eq {counts sizes : List Nat} (hcounts : ∀ frames ∈ counts, 1 ≤ frames)
    (hsizes : ∀ frames ∈ sizes, 1 ≤ frames) (hsum : counts.sum = sizes.sum) :
    counts = [] ↔ sizes = [] := by
  constructor
  · rintro rfl
    exact eq_nil_of_sum_eq_zero hsizes hsum.symm
  · rintro rfl
    exact eq_nil_of_sum_eq_zero hcounts hsum

theorem exists_renders_iff {calls : List (Controls × Nat)} :
    (∃ blocks : List Block, (player.renders calls patch).1 = blocks.map .ok)
      ↔ (player.advance patch calls).1 = .ok () := by
  constructor
  · rintro ⟨blocks, hblocks⟩
    exact advance_of_renders hblocks
  · intro hok
    rw [renders_of_advance hok]
    exact ⟨_, rfl⟩

/--
Two runs of the same text, with the same nodes recorded at the same scale, that play equally many
frames under the same controls: all blocks of one succeed if all blocks of the other do, and then
they are the same samples, and the recordings are the same bytes, before and after the patches are
closed.
-/
theorem renders_regroup (controls : Controls) (h : Opens text takes player patch)
    (hcopy : Opens text other twin copy)
    (hscaler : ∀ id, (patch.takeOf takes id).map (·.scaler) = (copy.takeOf other id).map (·.scaler))
    {counts sizes : List Nat}
    (hcounts : ∀ frames ∈ counts, 1 ≤ frames ∧ frames ≤ maxFrames)
    (hsizes : ∀ frames ∈ sizes, 1 ≤ frames ∧ frames ≤ maxFrames) (hsum : counts.sum = sizes.sum)
    (hroom : patch.rack.HasRoom counts.sum) :
    ((∃ blocks : List Block, (player.renders (callsOf controls counts) patch).1 = blocks.map .ok) ↔
      ∃ blocks : List Block, (twin.renders (callsOf controls sizes) copy).1 = blocks.map .ok) ∧
    ∀ blocks pieces : List Block,
      (player.renders (callsOf controls counts) patch).1 = blocks.map .ok →
      (twin.renders (callsOf controls sizes) copy).1 = pieces.map .ok →
        blocks.flatMap Array.toList = pieces.flatMap Array.toList ∧
        ∀ id take retake, patch.takeOf takes id = some take →
          copy.takeOf other id = some retake → ∃ bytes : Bytes,
            let played := (player.renders (callsOf controls counts) patch).2.2
            let replayed := (twin.renders (callsOf controls sizes) copy).2.2
            played.rack.files.contents.lookup take.way = some bytes ∧
            replayed.rack.files.contents.lookup retake.way = some bytes ∧
            played.close.contents.lookup take.way = some bytes ∧
            replayed.close.contents.lookup retake.way = some bytes := by
  have hless : ∀ frames ∈ counts, frames ≤ maxFrames := fun frames hmem => (hcounts frames hmem).2
  have hless' : ∀ frames ∈ sizes, frames ≤ maxFrames := fun frames hmem => (hsizes frames hmem).2
  have hempty : counts = [] ↔ sizes = [] :=
    eq_nil_iff_of_sum_eq (fun frames hmem => (hcounts frames hmem).1)
      (fun frames hmem => (hsizes frames hmem).1) hsum
  have hroom' : copy.rack.HasRoom sizes.sum := by
    rw [← hsum]
    exact h.hasRoom_twin hcopy hscaler hroom
  refine ⟨?_, ?_⟩
  · rw [exists_renders_iff, exists_renders_iff]
    exact h.advance_twin_ok_iff controls hcopy hless hless' hempty hsum hroom hroom'
  · intro blocks pieces hblocks hpieces
    have hplay := advance_of_renders hblocks
    have hreplay := advance_of_renders hpieces
    have hsame : ∀ id, patch.rack.Reaches player.output id →
        (player.blocksOf id patch (callsOf controls counts)).flatMap Array.toList
          = (twin.blocksOf id copy (callsOf controls sizes)).flatMap Array.toList :=
      fun id => h.blocksOf_twin_eq controls hcopy hless hless' hsum hroom hroom' hplay hreplay
    rw [renders_of_advance hplay] at hblocks ⊢
    rw [renders_of_advance hreplay] at hpieces ⊢
    rw [List.map_inj_right fun _ _ => Except.ok.inj] at hblocks hpieces
    rw [← hblocks, ← hpieces]
    obtain ⟨htwin, -, -⟩ := h.twin_eq hcopy
    constructor
    · rw [hsame player.output (Rack.Reaches.refl _ _), htwin]
    · intro id take retake htake hretake
      have hscale : take.scaler = retake.scaler := by
        have heq := hscaler id
        rw [htake, hretake, Option.map_some, Option.map_some, Option.some.injEq] at heq
        exact heq
      exact h.recording_twin_eq hcopy hplay hreplay (hsame id) htake hretake hscale

def takeTo (path : String) : Take :=
  { name := outputName, path, scaler := 1 }

theorem exists_opens_output {take : Take} {way : Way} (hname : take.name = outputName)
    (htarget : Files.target {} take.path = .ok way) :
    ∃ patch, Opens pairedText [take] { output := 2 } patch := by
  have houtput : paired.table.get? take.name = some 2 := by
    rw [hname]
    rfl
  have hparse : Patch.parse {} Registry.standard pairedText = (.ok (), paired) := Prod.ext rfl rfl
  have hfiles : paired.rack.files = {} := rfl
  have hok : (paired.record take.name take.path take.scaler).1 = .ok () := by
    apply Patch.fst_record houtput
    · rw [size_paired]
      decide
    · rw [hfiles]
      exact htarget
  cases hrecord : paired.record take.name take.path take.scaler with
  | mk result recorded =>
    rw [hrecord] at hok
    cases hok
    have hrecordAll : paired.recordAll [take] = (.ok (), recorded) := by
      simp only [Patch.recordAll, hrecord]
    have hplayer : (Player.new recorded).1 = .ok { output := 2 } := by
      rw [fst_new_eq_ok_iff]
      refine ⟨2, ?_, ?_, rfl⟩
      · rw [Patch.table_recordAll hrecordAll, ← hname, houtput]
      · rw [Rack.isStereo_of_shape (Patch.shape_recordAll hrecordAll)]
        rfl
    refine ⟨(Player.new recorded).2, by simp, {}, paired, recorded, hparse, hrecordAll, ?_⟩
    rw [← hplayer]

theorem exists_opens_paired {path : String} {way : Way}
    (htarget : Files.target {} path = .ok way) :
    ∃ patch, Opens pairedText [takeTo path] { output := 2 } patch :=
  exists_opens_output rfl htarget

theorem renders_paired {takes : List Take} {patch : Patch} {counts : List Nat}
    (h : Opens pairedText takes { output := 2 } patch)
    (hcounts : ∀ frames ∈ counts, frames ≤ maxFrames) (hroom : patch.rack.HasRoom counts.sum) :
    ∃ blocks : List Block,
      (renders { output := 2 } (callsOf {} counts) patch).1 = blocks.map .ok := by
  obtain ⟨hrack, -, -, hshape⟩ := h.built
  obtain ⟨-, -, hroot⟩ := h.output_eq
  rw [exists_renders_iff, advance_ok_iff (h.playedTo {}) hroot hcounts hroom]
  exact Or.inr fun id _ => clean_paired hrack hshape {} _ id

theorem renders_regroup_paired :
    ∃ (patch copy : Patch) (blocks pieces : List Block),
      Opens pairedText [takeTo "a"] { output := 2 } patch ∧
      Opens pairedText [takeTo "b"] { output := 2 } copy ∧
      (renders { output := 2 } (callsOf {} [3]) patch).1 = blocks.map .ok ∧
      (renders { output := 2 } (callsOf {} [2, 1]) copy).1 = pieces.map .ok ∧
      blocks.flatMap Array.toList = pieces.flatMap Array.toList := by
  have hwhole : Files.target {} "a" = .ok ["a"] := by cbv
  have hpieces : Files.target {} "b" = .ok ["b"] := by cbv
  obtain ⟨patch, h⟩ := exists_opens_paired hwhole
  obtain ⟨copy, hcopy⟩ := exists_opens_paired hpieces
  have hroom : patch.rack.HasRoom [3].sum := h.hasRoom (by decide)
  have hroom' : copy.rack.HasRoom [2, 1].sum := hcopy.hasRoom (by decide)
  obtain ⟨blocks, hblocks⟩ := renders_paired h (by decide) hroom
  obtain ⟨pieces, hpieces⟩ := renders_paired hcopy (by decide) hroom'
  refine ⟨patch, copy, blocks, pieces, h, hcopy, hblocks, hpieces, ?_⟩
  have hsum : [3].sum = [2, 1].sum := rfl
  have hregroup := renders_regroup {} h hcopy (h.scaler_takeOf_eq hcopy rfl) (by decide)
    (by decide) hsum hroom
  exact (hregroup.2 blocks pieces hblocks hpieces).1

end Player
end PatchSynth
