import PatchSynth.CommandLine.Program
import PatchSynth.Proofs.CommandLine.Options
import PatchSynth.Proofs.Patch.Distinct
import PatchSynth.Proofs.Player.Offline
import PatchSynth.Proofs.Player.Regroup
import PatchSynth.Proofs.Rack.Cause
import PatchSynth.Proofs.Rack.Reel

/-!
This module contains runs of the program that render a patch offline, from the arguments to the
files that are left behind: how they end, and what is in the file of each recording that they were
asked for.
-/

namespace PatchSynth

namespace Files

def HoldsFrames (files : Files) (path : String) (channels frames : Nat) : Prop :=
  ∃ bytes samples, files.read path = .ok bytes ∧
    Wav.IsPlainHeader (bytes.toList.take 44) channels (frames * channels) ∧
    Wav.parse? bytes.toList = some { channels, samples } ∧
    samples.length = frames * channels

end Files

def Options.controls (options : Options) : Controls :=
  options.axis.foldl (fun controls (axis, value) => controls.set axis value) {}

def Take.ofTarget (scaler : Float32) (target : String × String) : Take :=
  { name := target.1, path := target.2, scaler }

def Options.takes (options : Options) : List Take :=
  options.record.map (Take.ofTarget options.scaler)

namespace Rack

variable {rack : Rack} {id : Nat} {path : String} {scaler : Float32} {channels frames : Nat}
  {kept : List Block}

theorem Reel.holdsFrames (h : rack.Reel id (Path.way path) scaler channels kept)
    (htarget : rack.files.target path = .ok (Path.way path))
    (hsize : (kept.map Array.size).sum = frames * channels)
    (hroom : frames * channels ≤ Wav.maxSamples) :
    rack.files.HoldsFrames path channels frames := by
  obtain ⟨bytes, hlookup, hbytes⟩ := h.bytes_eq
  obtain ⟨node, -, rfl⟩ := h.channels_eq
  have hle := node.device.channels_le_two
  have hsamples : ((kept.flatMap Array.toList).map (Pcm.ofSample scaler)).length
      = frames * node.device.channels := by
    rw [← hsize, List.length_map, List.length_flatMap]
    rfl
  rw [Pcm.length_ofBlocks, hsize] at hbytes
  refine ⟨bytes, _, Files.read_of_target rfl htarget hlookup, ?_, ?_, hsamples⟩
  · rw [hbytes, List.take_left' ((Wav.length_header _ _).trans (Wav.headerSize_of_le hle))]
    exact Wav.isPlainHeader_header hle hroom
  · rw [hbytes, ← hsamples]
    exact Wav.parse?_header hle _

end Rack

namespace Program

/--
Whether a command line, on some files, renders so many blocks of a patch with a stereo output and
records instances of it, each one once and to a file of its own. The files can be created, and there
is room for all of it.
-/
structure Offline (options : Options) (files : Files) (patch : Patch) (output blocks : Nat) :
    Prop where
  blocks_eq : options.blocks = some blocks
  loaded : Patch.load { rack := { files } } Registry.standard options.patch = (.ok (), patch)
  output_eq : patch.table.get? Player.outputName = some output
  stereo : patch.rack.isStereo output = true
  names : (options.record.map fun target => target.1).Nodup
  named : ∀ target ∈ options.record, ∃ id, patch.table.get? target.1 = some id
  ways : (options.record.map fun target => Path.way target.2).Nodup
  targets : ∀ target ∈ options.record, ∃ way, files.target target.2 = .ok way
  room : ∀ target ∈ options.record, ∀ id, patch.table.get? target.1 = some id →
    blocks * options.blockSize * patch.rack.channelsOf id ≤ Wav.maxSamples

variable {options : Options} {files : Files} {patch : Patch} {output blocks : Nat}

theorem record_of_recordAll {scaler : Float32} {targets : List (String × String)} {next : Patch}
    (h : patch.recordAll (targets.map (Take.ofTarget scaler)) = (.ok (), next)) :
    record scaler targets patch = (.ok (), next) := by
  induction targets generalizing patch with
  | nil =>
    cases h
    rfl
  | cons target rest ih =>
    obtain ⟨first, hfirst, hrest⟩ := Patch.recordAll_cons h
    have htarget : patch.record target.1 target.2 scaler = (.ok (), first) := hfirst
    simp only [record, htarget]
    exact ih hrest

theorem built_load (files : Files) (path : String) :
    (Patch.load { rack := { files } } Registry.standard path).2.Built ∧
      (Patch.load { rack := { files } } Registry.standard path).2.Distinct ∧
      (Patch.load { rack := { files } } Registry.standard path).2.rack.files = files := by
  unfold Patch.load
  split
  next => exact ⟨Patch.Built.empty files, nofun, rfl⟩
  next text _ =>
    refine ⟨(Patch.Built.empty files).parse text, Patch.distinct_parse files _ text, ?_⟩
    have hfiles : Patch.parse { rack := { files } } Registry.standard text
        = ((Patch.parse {} Registry.standard text).1,
            (Patch.parse {} Registry.standard text).2.withFiles files) :=
      Patch.parse_withFiles {} files text
    show (Patch.parse { rack := { files } } Registry.standard text).2.rack.files = files
    rw [hfiles]
    rfl

namespace Offline

theorem built (h : Offline options files patch output blocks) :
    patch.Built ∧ patch.Distinct ∧ patch.rack.files = files := by
  have hbuilt := built_load files options.patch
  rw [h.loaded] at hbuilt
  exact hbuilt

theorem exists_recorded (h : Offline options files patch output blocks) :
    ∃ recorded, patch.recordAll options.takes = (.ok (), recorded) := by
  obtain ⟨hbuilt, -, hfiles⟩ := h.built
  have hok : (patch.recordAll options.takes).1 = .ok () := by
    apply Patch.recordAll_ok
    intro take hmem
    obtain ⟨target, htarget, rfl⟩ := List.mem_map.1 hmem
    obtain ⟨id, hname⟩ := h.named target htarget
    obtain ⟨way, hway⟩ := h.targets target htarget
    refine ⟨id, way, hname, hbuilt.named _ _ hname, ?_⟩
    rw [hfiles]
    exact hway
  exact ⟨_, Prod.ext hok rfl⟩

variable {recorded : Patch} {target : String × String} {id : Nat}

theorem reel (h : Offline options files patch output blocks)
    (hrecord : patch.recordAll options.takes = (.ok (), recorded))
    (hmem : target ∈ options.record) (hname : patch.table.get? target.1 = some id) :
    recorded.rack.Reel id (Path.way target.2) options.scaler (patch.rack.channelsOf id) [] ∧
      recorded.rack.fileOf id = some (Path.way target.2) := by
  obtain ⟨hbuilt, hdistinct, -⟩ := h.built
  have hnames : (options.takes.map Take.name).Nodup := by
    rw [Options.takes, List.map_map]
    exact h.names
  have hways : (options.takes.map Take.way).Nodup := by
    rw [Options.takes, List.map_map]
    exact h.ways
  have htake : patch.takeOf options.takes id = some (Take.ofTarget options.scaler target) :=
    Patch.takeOf_of_mem hdistinct hnames (List.mem_map_of_mem hmem) hname
  have htag := Patch.tagOf_recordAll hrecord id
  rw [Rack.tagOf_of_unrecorded hbuilt.unrecorded, htake, Option.none_or, Option.map_some] at htag
  obtain ⟨node, recorder, hnode, hrecorder, htag⟩ := Rack.tagOf_eq_some_iff.1 htag
  rw [Prod.mk.injEq] at htag
  obtain ⟨hfile, hscaler⟩ := htag
  have hfileOf := Rack.fileOf_eq hnode hrecorder
  have hapart := Patch.apart_recordAll hrecord hways (Rack.apart_of_unrecorded hbuilt.unrecorded _)
  have hchannels : node.device.channels = patch.rack.channelsOf id := by
    rw [← Rack.channelsOf_of_shape (Patch.shape_recordAll hrecord), Rack.channelsOf, hnode]
  have hrack := Patch.wellFormed_recordAll hrecord hbuilt.reachable.wellFormed
  have hholds : recorder.Holds recorded.rack.files node.device.channels
      (Pcm.ofBlocks options.scaler []) := hapart.holds hnode hrecorder
  have hreel := Rack.Reel.of_holds hrack (hapart.alone hfileOf) hnode hrecorder hscaler hholds
  rw [hfile, hchannels] at hreel
  rw [hfile] at hfileOf
  exact ⟨hreel, hfileOf⟩

def calls (options : Options) (blocks : Nat) : List (Controls × Nat) :=
  List.replicate blocks (options.controls, options.blockSize)

theorem hasRoom (h : Offline options files patch output blocks)
    (hrecord : patch.recordAll options.takes = (.ok (), recorded)) :
    recorded.rack.HasRoom (blocks * options.blockSize) := by
  obtain ⟨hbuilt, -, -⟩ := h.built
  have hrack := Patch.wellFormed_recordAll hrecord hbuilt.reachable.wellFormed
  have hunplayed := Patch.unplayed_recordAll hrecord hbuilt.unplayed
  intro id node recorder hnode hrecorder
  have hwritten : recorder.written = 0 :=
    ((hrack.sound hnode).unplayed (hunplayed id node hnode).1).2.2 recorder hrecorder
  have hchannels : node.device.channels = patch.rack.channelsOf id := by
    rw [← Rack.channelsOf_of_shape (Patch.shape_recordAll hrecord), Rack.channelsOf, hnode]
  -- Whatever is recorded is recorded because a target of the command line says so.
  have htag := Patch.tagOf_recordAll hrecord id
  rw [Rack.tagOf_of_unrecorded hbuilt.unrecorded, Option.none_or,
    Rack.tagOf_eq_some_iff.2 ⟨node, recorder, hnode, hrecorder, rfl⟩] at htag
  obtain ⟨take, htake, -⟩ := Option.map_eq_some_iff.1 htag.symm
  obtain ⟨htakes, hname⟩ := Patch.of_takeOf htake
  obtain ⟨target, hmem, rfl⟩ := List.mem_map.1 htakes
  have hroom := h.room target hmem id hname
  rw [hwritten, hchannels]
  omega

theorem framesOf_calls (hsize : options.blockSize ≤ maxFrames) :
    Player.framesOf (calls options blocks) = blocks * options.blockSize := by
  simp [Player.framesOf, calls, Nat.min_eq_left hsize]

theorem renders_eq (h : Offline options files patch output blocks)
    (hsize : options.blockSize ≤ maxFrames)
    (hrecord : patch.recordAll options.takes = (.ok (), recorded)) {opened : Patch}
    (hopened : opened.rack = recorded.rack) :
    untilFailure (Player.renders { output } (calls options blocks) opened).1
      = untilFailure (Player.renders { output } (calls options blocks) patch).1 := by
  obtain ⟨hbuilt, -, -⟩ := h.built
  have hrack := hbuilt.reachable.wellFormed
  apply Player.renders_of_unrecorded hrack
  · rw [hopened]
    exact Patch.wellFormed_recordAll hrecord hrack
  · exact hbuilt.named _ _ h.output_eq
  · rw [hopened]
    exact Patch.unrecorded_recordAll hrecord
  · exact hbuilt.unrecorded
  · rw [hopened, framesOf_calls hsize]
    exact h.hasRoom hrecord

theorem exists_tally (h : Offline options files patch output blocks)
    (hsize : options.blockSize ≤ maxFrames)
    (hrecord : patch.recordAll options.takes = (.ok (), recorded)) {opened : Patch}
    (hopened : opened.rack = recorded.rack) {node : Node}
    (hnode : opened.rack.nodes[id]? = some node) :
    ∃ count,
      (patch.rack.Reaches output id →
        Tally (Player.renders { output } (calls options blocks) patch).1 count) ∧
      (¬ patch.rack.Reaches output id → count = 0) ∧ count ≤ blocks ∧
      (opened.rack.fillings id (Player.pulls { output } opened (calls options blocks))).map
        (·.block.size) = List.replicate count (options.blockSize * node.device.channels) := by
  obtain ⟨hbuilt, -, -⟩ := h.built
  have hrack := Patch.wellFormed_recordAll hrecord hbuilt.reachable.wellFormed
  have hunplayed := Patch.unplayed_recordAll hrecord hbuilt.unplayed
  have hshape := Patch.shape_recordAll hrecord
  rw [← hopened] at hrack hunplayed hshape
  by_cases hreaches : patch.rack.Reaches output id
  · have hframes : ∀ call ∈ calls options blocks, call.2 = options.blockSize := by
      intro call hmem
      rw [List.eq_of_mem_replicate hmem]
    have hreaches' : opened.rack.Reaches ({ output } : Player).output id := by
      rw [Rack.reaches_of_shape hshape]
      exact hreaches
    obtain ⟨count, htally, hsizes⟩ :=
      Player.tally_fillings hrack hframes hsize hreaches' hnode (hunplayed.isStale hnode _)
    have hle := htally.le_length
    rw [Player.length_renders, calls, List.length_replicate] at hle
    rw [← Tally.untilFailure_iff, h.renders_eq hsize hrecord hopened, Tally.untilFailure_iff]
      at htally
    exact ⟨count, fun _ => htally, fun hnot => absurd hreaches hnot, hle, hsizes⟩
  · refine ⟨0, fun hreaches' => absurd hreaches' hreaches, fun _ => rfl, Nat.zero_le _, ?_⟩
    rw [Rack.fillings_of_not_reaches]
    · rfl
    · intro pull hpull
      rw [Player.output_of_mem_pulls hpull, Rack.reaches_of_shape hshape]
      exact hreaches

theorem played (h : Offline options files patch output blocks)
    (hsize : options.blockSize ≤ maxFrames)
    (hrecord : patch.recordAll options.takes = (.ok (), recorded)) {opened : Patch}
    (hopened : opened.rack = recorded.rack)
    (hmem : target ∈ options.record) (hname : patch.table.get? target.1 = some id) :
    ∃ count kept,
      (patch.rack.Reaches output id →
        Tally (Player.renders { output } (calls options blocks) patch).1 count) ∧
      (¬ patch.rack.Reaches output id → count = 0) ∧
      (kept.map Array.size).sum = count * options.blockSize * patch.rack.channelsOf id ∧
      count * options.blockSize * patch.rack.channelsOf id ≤ Wav.maxSamples ∧
      (Player.advance { output } opened (calls options blocks)).2.2.rack.Reel id
        (Path.way target.2) options.scaler (patch.rack.channelsOf id) kept := by
  obtain ⟨hreel, hfile⟩ := h.reel hrecord hmem hname
  rw [← hopened] at hreel hfile
  obtain ⟨node, hnode, hchannels⟩ := hreel.channels_eq
  obtain ⟨count, hreached, hunreached, hle, hsizes⟩ :=
    h.exists_tally hsize hrecord hopened hnode
  have hlast := hreel.outputs (Player.pulls { output } opened (calls options blocks))
  rw [Rack.tapes, if_pos hfile, ← Player.rack_advance] at hlast
  rw [hchannels] at hsizes
  generalize opened.rack.fillings id (Player.pulls { output } opened (calls options blocks))
    = fillings at hsizes hlast
  have hfits : count * options.blockSize * patch.rack.channelsOf id ≤ Wav.maxSamples :=
    Nat.le_trans (Nat.mul_le_mul_right _ (Nat.mul_le_mul_right _ hle))
      (h.room target hmem id hname)
  have hsum : ((fillings.map Filling.block).map Array.size).sum
      = count * options.blockSize * patch.rack.channelsOf id := by
    rw [List.map_map]
    show (fillings.map (·.block.size)).sum = _
    rw [hsizes, List.sum_replicate, smul_eq_mul, Nat.mul_assoc]
  have hkept : (fillings.map Filling.block).foldl Wav.fit [] = fillings.map Filling.block :=
    Wav.fitting_of_le (by rw [hsum]; exact hfits)
  rw [hkept] at hlast
  exact ⟨count, _, hreached, hunreached, hsum, hfits, hlast⟩

theorem play_eq (h : Offline options files patch output blocks)
    (hrecord : patch.recordAll options.takes = (.ok (), recorded)) :
    play options files = render options options.controls recorded := by
  simp only [play, h.loaded, record_of_recordAll hrecord]
  rfl

theorem new_eq (h : Offline options files patch output blocks)
    (hrecord : patch.recordAll options.takes = (.ok (), recorded)) :
    Player.new recorded = (.ok { output }, (Player.new recorded).2) := by
  have hnew : (Player.new recorded).1 = .ok { output } := by
    rw [Player.fst_new_eq_ok_iff]
    refine ⟨output, ?_, ?_, rfl⟩
    · rw [Patch.table_recordAll hrecord, h.output_eq]
    · rw [Rack.isStereo_of_shape (Patch.shape_recordAll hrecord), h.stereo]
  exact Prod.ext hnew rfl

theorem run_eq {arguments : List String} (hoptions : Options.parse arguments = .ok options)
    (h : Offline options files patch output blocks)
    (hrecord : patch.recordAll options.takes = (.ok (), recorded)) :
    ∃ opened : Patch, opened.rack = recorded.rack ∧
      ((Player.advance { output } opened (calls options blocks)).1 = .ok () →
        (run arguments files).1.exitCode = 0) ∧
      (∀ e, (Player.advance { output } opened (calls options blocks)).1 = .error e →
        (run arguments files).1.exitCode = 1) ∧
      ∀ P : Rack → Prop, (∀ {rack : Rack} (id : Nat), P rack → P (rack.stop id).2) →
        P (Player.advance { output } opened (calls options blocks)).2.2.rack →
          ∃ last, P last ∧ (run arguments files).2 = last.files := by
  refine ⟨(Player.new recorded).2, Player.rack_new recorded, ?_⟩
  have hplay : play options files = render options options.controls recorded := h.play_eq hrecord
  have hstopAll : ∀ {P : Rack → Prop} {patch : Patch},
      (∀ {rack : Rack} (id : Nat), P rack → P (rack.stop id).2) → P patch.rack →
        P patch.stopAll.2.rack := fun hstop hpatch => Rack.keep_forAll_stop hstop hpatch _
  rw [render, h.new_eq hrecord] at hplay
  simp only [h.blocks_eq, Player.runOffline_eq_advance] at hplay
  cases hadvance : Player.advance { output } (Player.new recorded).2 (calls options blocks) with
  | mk result ran =>
    unfold calls at hadvance
    rw [hadvance] at hplay
    cases result with
    | error e =>
      have hrun : run arguments files = ({ exitCode := 1, chain := e.chain }, ran.2.close) := by
        simp only [run, hoptions, hplay]
      rw [hrun]
      refine ⟨by simp, fun _ _ => rfl, ?_⟩
      intro P hstop hran
      exact ⟨_, Rack.keep_release hstop hran _ _, rfl⟩
    | ok _ =>
      have hran : ran.2.rack.WellFormed := by
        apply Player.wellFormed_advance _ hadvance
        rw [Player.rack_new]
        exact Patch.wellFormed_recordAll hrecord h.built.1.reachable.wellFormed
      have hstopped : ran.2.stopAll.1 = .ok () := hran.fst_forAll_stop _
      have hrun : run arguments files = ({ exitCode := 0 }, ran.2.stopAll.2.close) := by
        simp only [run, hoptions, hplay, hstopped, Except.mapError]
      rw [hrun]
      refine ⟨fun _ => rfl, by simp, ?_⟩
      intro P hstop hran
      exact ⟨_, Rack.keep_release hstop (hstopAll hstop hran) _ _, rfl⟩

theorem exitCode_eq {arguments : List String} (hoptions : Options.parse arguments = .ok options)
    (h : Offline options files patch output blocks) :
    ((run arguments files).1.exitCode = 0 ∧ ∃ played : List Block,
        (Player.renders { output } (calls options blocks) patch).1 = played.map .ok) ∨
      ((run arguments files).1.exitCode = 1 ∧ ¬ ∃ played : List Block,
        (Player.renders { output } (calls options blocks) patch).1 = played.map .ok) := by
  obtain ⟨recorded, hrecord⟩ := h.exists_recorded
  obtain ⟨opened, hopened, hzero, hone, -⟩ := h.run_eq hoptions hrecord
  obtain ⟨-, hsize⟩ := Options.blockSize_of_parse hoptions
  -- The recorders do not decide what fails, because there is room for all blocks.
  rw [← exists_map_ok_iff, ← h.renders_eq hsize hrecord hopened, exists_map_ok_iff,
    Player.exists_renders_iff]
  cases hresult : (Player.advance { output } opened (calls options blocks)).1 with
  | ok _ => exact Or.inl ⟨hzero hresult, rfl⟩
  | error e => exact Or.inr ⟨hone e hresult, by simp⟩

theorem exists_holdsFrames {arguments : List String}
    (hoptions : Options.parse arguments = .ok options)
    (h : Offline options files patch output blocks) (hmem : target ∈ options.record)
    (hname : patch.table.get? target.1 = some id) :
    ∃ count,
      (patch.rack.Reaches output id →
        Tally (Player.renders { output } (calls options blocks) patch).1 count) ∧
      (¬ patch.rack.Reaches output id → count = 0) ∧
      (run arguments files).2.HoldsFrames target.2 (patch.rack.channelsOf id)
        (count * options.blockSize) := by
  obtain ⟨recorded, hrecord⟩ := h.exists_recorded
  obtain ⟨opened, hopened, -, -, hlast⟩ := h.run_eq hoptions hrecord
  obtain ⟨-, hsize⟩ := Options.blockSize_of_parse hoptions
  obtain ⟨count, kept, hreached, hunreached, hsum, hfits, hreel⟩ :=
    h.played hsize hrecord hopened hmem hname
  obtain ⟨-, -, hfiles⟩ := h.built
  have hlater : patch.rack.Later
      (Player.advance { output } opened (calls options blocks)).2.2.rack := by
    rw [Player.rack_advance, hopened]
    exact (Patch.later_recordAll hrecord).trans (Rack.later_outputs _ _)
  obtain ⟨last, ⟨hend, hdirectories⟩, hrun⟩ := hlast
    (fun rack => rack.Reel id (Path.way target.2) options.scaler (patch.rack.channelsOf id) kept ∧
      patch.rack.Later rack)
    (fun id hrack => ⟨hrack.1.stop id, hrack.2.stop id⟩) ⟨hreel, hlater⟩
  obtain ⟨way, htarget⟩ := h.targets target hmem
  rw [Rack.way_of_target htarget, ← hfiles] at htarget
  refine ⟨count, hreached, hunreached, ?_⟩
  rw [hrun]
  exact hend.holdsFrames (Files.target_of_directories hdirectories.directories_eq htarget) hsum
    hfits

end Offline

/--
How a run of the program that renders a patch offline ends. It succeeds if and only if all blocks
come out, and then every recording of an instance that the output depends on has all of their
frames. Otherwise it has the frames of the blocks up to the first one that fails, which may or may
not be recorded. The file of any other instance is a header alone, and all files are valid in all
cases. A patch that cannot be loaded leaves all files as they were.
-/
theorem run_offline {arguments : List String} (hoptions : Options.parse arguments = .ok options) :
    (∀ patch output blocks, Offline options files patch output blocks →
      let results := (Player.renders { output }
        (List.replicate blocks (options.controls, options.blockSize)) patch).1
      ((run arguments files).1.exitCode = 0 ↔ ∃ played : List Block, results = played.map .ok) ∧
      (∀ (played : List Block) (e : Error) (rest : List (Except Error Block)),
        results = played.map .ok ++ .error e :: rest → (run arguments files).1.exitCode = 1) ∧
      ∀ (target : String × String) (id : Nat), target ∈ options.record →
        patch.table.get? target.1 = some id →
        let holds := (run arguments files).2.HoldsFrames target.2 (patch.rack.channelsOf id)
        (¬ patch.rack.Reaches output id → holds 0) ∧
        (patch.rack.Reaches output id →
          (∀ played : List Block, results = played.map .ok → holds (blocks * options.blockSize)) ∧
          ∀ (played : List Block) (e : Error) (rest : List (Except Error Block)),
            results = played.map .ok ++ .error e :: rest →
              holds (played.length * options.blockSize) ∨
                holds ((played.length + 1) * options.blockSize))) ∧
    ∀ e patch,
      Patch.load { rack := { files } } Registry.standard options.patch = (.error e, patch) →
      (run arguments files).1.exitCode = 1 ∧ (run arguments files).2 = files := by
  constructor
  · intro patch output blocks h
    dsimp only
    have hexit := h.exitCode_eq hoptions
    unfold Offline.calls at hexit
    refine ⟨?_, ?_, ?_⟩
    · obtain ⟨hexit, hplayed⟩ | ⟨hexit, hfails⟩ := hexit
      · exact iff_of_true hexit hplayed
      · exact iff_of_false (by rw [hexit]; decide) hfails
    · intro played e rest hresults
      obtain ⟨-, hplayed⟩ | ⟨hexit, -⟩ := hexit
      · rw [hresults] at hplayed
        exact absurd hplayed (not_exists_map_ok _ e _)
      · exact hexit
    · intro target id hmem hname
      obtain ⟨count, hreached, hunreached, hholds⟩ := h.exists_holdsFrames hoptions hmem hname
      refine ⟨?_, ?_⟩
      · intro hreaches
        rw [hunreached hreaches, Nat.zero_mul] at hholds
        exact hholds
      · intro hreaches
        have htally := hreached hreaches
        have hlength := Player.length_renders { output } (Offline.calls options blocks) patch
        unfold Offline.calls at htally hlength
        refine ⟨?_, ?_⟩
        · intro played hresults
          rw [hresults] at htally hlength
          rw [List.length_map, List.length_replicate] at hlength
          rw [htally.of_ok, hlength] at hholds
          exact hholds
        · intro played e rest hresults
          rw [hresults] at htally
          obtain rfl | rfl := htally.of_error
          · exact Or.inl hholds
          · exact Or.inr hholds
  · intro e patch hload
    have hbuilt := built_load files options.patch
    rw [hload] at hbuilt
    obtain ⟨hbuilt, -, hfiles⟩ := hbuilt
    simp only [run, hoptions, play, hload]
    refine ⟨trivial, ?_⟩
    rw [Patch.close, Rack.release_of_unrecorded hbuilt.unrecorded, hfiles]

def pairedArguments : List String :=
  ["p", "--blocks", "2", "--block-size", "3", "--record", "output=a", "--record", "unread=b"]

def pairedOptions : Options :=
  { patch := "p", blocks := some 2, blockSize := 3, record := [("output", "a"), ("unread", "b")] }

def pairedFiles : Files :=
  { contents := [(["p"], Player.pairedText.toUTF8.data)] }

theorem load_paired : Patch.load { rack := { files := pairedFiles } } Registry.standard "p"
    = (.ok (), Player.paired.withFiles pairedFiles) := by
  have hread : pairedFiles.read "p" = .ok Player.pairedText.toUTF8.data := by cbv
  have htext : pairedFiles.readText "p" = .ok Player.pairedText := by
    simp only [Files.readText, hread, bind, Except.bind]
    rw [String.toUTF8_eq_toByteArray, String.fromUTF8?, dif_pos Player.pairedText.isValidUTF8]
    rfl
  have hparse : Patch.parse {} Registry.standard Player.pairedText = (.ok (), Player.paired) :=
    Prod.ext rfl rfl
  have hfiles := @Patch.parse_withFiles Registry.standard {} pairedFiles Player.pairedText
  rw [hparse] at hfiles
  simp only [Patch.load, htext]
  show (Except.mapError LoadError.parse
      (Patch.parse (Patch.withFiles {} pairedFiles) Registry.standard Player.pairedText).1,
    (Patch.parse (Patch.withFiles {} pairedFiles) Registry.standard Player.pairedText).2) = _
  rw [hfiles]
  rfl

theorem of_mem_paired {target : String × String} (h : target ∈ pairedOptions.record) :
    target = ("output", "a") ∨ target = ("unread", "b") := by
  simpa [pairedOptions] using h

theorem shape_paired :
    (Player.paired.withFiles pairedFiles).rack.shape = Player.paired.rack.shape := rfl

theorem offline_paired :
    Offline pairedOptions pairedFiles (Player.paired.withFiles pairedFiles) 2 2 where
  blocks_eq := rfl
  loaded := load_paired
  output_eq := rfl
  stereo := rfl
  names := by decide
  named := by
    intro target hmem
    obtain rfl | rfl := of_mem_paired hmem
    · exact ⟨2, rfl⟩
    · exact ⟨1, rfl⟩
  ways := by
    have hways : pairedOptions.record.map (fun target => Path.way target.2) = [["a"], ["b"]] := by
      cbv
    rw [hways]
    decide
  targets := by
    intro target hmem
    obtain rfl | rfl := of_mem_paired hmem
    · exact ⟨["a"], by cbv⟩
    · exact ⟨["b"], by cbv⟩
  room := by
    intro target hmem id hname
    obtain rfl | rfl := of_mem_paired hmem
    · have hid : some 2 = some id := hname
      cases hid
      decide
    · have hid : some 1 = some id := hname
      cases hid
      decide

theorem renders_paired :
    ∃ played : List Block, (Player.renders { output := 2 } (List.replicate 2
      (pairedOptions.controls, pairedOptions.blockSize))
        (Player.paired.withFiles pairedFiles)).1 = played.map .ok := by
  obtain ⟨hbuilt, -, -⟩ := offline_paired.built
  have hrack := hbuilt.reachable.wellFormed
  have hplayed : (Player.paired.withFiles pairedFiles).rack.PlayedTo {} 2 0 0 :=
    Rack.PlayedTo.of_unplayed hrack hbuilt.wellTyped hbuilt.unplayed _ _
  show ∃ played : List Block, (Player.renders { output := 2 } (Player.callsOf {} [3, 3])
    (Player.paired.withFiles pairedFiles)).1 = played.map .ok
  rw [Player.exists_renders_iff, Player.advance_ok_iff hplayed (by decide) (by decide)
    (hbuilt.hasRoom _)]
  exact Or.inr fun id _ => Player.clean_paired hrack shape_paired {} _ id

theorem run_offline_paired :
    Options.parse pairedArguments = .ok pairedOptions ∧
      Offline pairedOptions pairedFiles (Player.paired.withFiles pairedFiles) 2 2 ∧
      (run pairedArguments pairedFiles).1.exitCode = 0 ∧
      (run pairedArguments pairedFiles).2.HoldsFrames "a" 2 6 ∧
      (run pairedArguments pairedFiles).2.HoldsFrames "b" 1 0 := by
  have hoptions : Options.parse pairedArguments = .ok pairedOptions := by
    with_unfolding_all rfl
  obtain ⟨hplayed, -⟩ := @run_offline _ pairedFiles _ hoptions
  obtain ⟨hexit, -, hfiles⟩ := hplayed _ _ _ offline_paired
  obtain ⟨played, hresults⟩ := renders_paired
  have houtput : (Player.paired.withFiles pairedFiles).rack.Reaches 2 2 := .refl _ _
  have hunread : ¬ (Player.paired.withFiles pairedFiles).rack.Reaches 2 1 := by
    intro hreaches
    rw [Rack.reaches_of_shape shape_paired] at hreaches
    obtain h | h := Player.reaches_paired hreaches <;> cases h
  refine ⟨hoptions, offline_paired, hexit.2 ⟨played, hresults⟩, ?_, ?_⟩
  · obtain ⟨-, hall⟩ := hfiles ("output", "a") 2 (by simp [pairedOptions]) rfl
    exact (hall houtput).1 played hresults
  · obtain ⟨hnone, -⟩ := hfiles ("unread", "b") 1 (by simp [pairedOptions]) rfl
    exact hnone hunread

end Program
end PatchSynth
