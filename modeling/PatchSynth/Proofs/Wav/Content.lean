import PatchSynth.Proofs.Wav.Library

/-!
This module contains what a reader finds in the file of a recorder. Numbers and samples are read
back from the bytes that were written for them, field by field, and so a recording that goes on
block by block is a valid file with all of its samples after every block.
-/

namespace PatchSynth

namespace Files

theorem enter_of_directories {files after : Files} (h : after.directories = files.directories)
    {way next : Way} {name : String} (hnext : files.enter way name = .ok next) :
    after.enter way name = .ok next := by
  unfold enter isDirectory at *
  rw [h]
  grind

theorem walk_of_directories {files after : Files} (h : after.directories = files.directories)
    {way last : Way} {names : List String} (hlast : files.walk way names = .ok last) :
    after.walk way names = .ok last := by
  fun_induction files.walk way names with
  | case1 => exact hlast
  | case2 => exact hlast
  | case3 way name rest _ ih =>
    cases hnext : files.enter way name with
    | error e => simp [hnext, bind, Except.bind] at hlast
    | ok next =>
      have hrest : files.walk next rest = .ok last := by
        simpa [hnext, bind, Except.bind] using hlast
      rw [walk, enter_of_directories h hnext]
      · exact ih next hrest
      · assumption

theorem locate_of_directories {files after : Files} (h : after.directories = files.directories)
    {path : String} {way : Way} (hway : files.locate path = .ok way) :
    after.locate path = .ok way := by
  unfold locate at *
  split at hway
  · cases hway
  split at hway
  · cases hway
  split at hway
  · cases hway
  next hnul hempty hsize =>
    rw [if_neg hnul, if_neg hempty, if_neg hsize]
    exact walk_of_directories h hway

theorem get?_of_directories {files after : Files} (h : after.directories = files.directories)
    {way : Way} {old : Option Bytes} (hget : files.get? way = .ok old) :
    after.get? way = .ok (after.contents.lookup way) := by
  unfold get? isDirectory at *
  rw [h]
  grind

theorem target_of_directories {files after : Files} (h : after.directories = files.directories)
    {path : String} {way : Way} (htarget : files.target path = .ok way) :
    after.target path = .ok way := by
  obtain ⟨hlocate, hslash, old, hget⟩ := target_eq_ok_iff.1 htarget
  exact target_eq_ok_iff.2
    ⟨locate_of_directories h hlocate, hslash, _, get?_of_directories h hget⟩

theorem read_of_target {files after : Files} (h : after.directories = files.directories)
    {path : String} {way : Way} (htarget : files.target path = .ok way) {bytes : Bytes}
    (hbytes : after.contents.lookup way = some bytes) : after.read path = .ok bytes := by
  obtain ⟨hlocate, hslash, old, hget⟩ := target_eq_ok_iff.1 htarget
  have hafter := get?_of_directories h hget
  rw [hbytes] at hafter
  simp [read, locate_of_directories h hlocate, hafter, hslash, bind, Except.bind]

end Files

namespace Wav

theorem ofBytes_bytes16 {n : Nat} (h : n < 2 ^ 16) : ofBytes (bytes16 n) = n := by
  simp only [bytes16, ofBytes, List.foldr_cons, List.foldr_nil, UInt8.toNat_ofNat']
  omega

theorem ofBytes_bytes32 {n : Nat} (h : n < 2 ^ 32) : ofBytes (bytes32 n) = n := by
  simp only [bytes32, bytes16, List.cons_append, List.nil_append, ofBytes, List.foldr_cons,
    List.foldr_nil, UInt8.toNat_ofNat']
  omega

theorem ofBytes_bytes (sample : Int16) :
    ofBytes (Pcm.bytes sample) = sample.toUInt16.toNat := by
  have hshift : sample.toUInt16.toNat >>> (UInt16.toNat 8 % 16) = sample.toUInt16.toNat / 256 := by
    rw [Nat.shiftRight_eq_div_pow]
    rfl
  have := sample.toUInt16.toNat_lt
  simp only [Pcm.bytes, ofBytes, List.foldr_cons, List.foldr_nil, UInt16.toNat_toUInt8,
    UInt16.toNat_shiftRight, hshift]
  omega

@[simp]
theorem samplesOfBytes_flatMap (samples : List Int16) :
    samplesOfBytes (samples.flatMap Pcm.bytes) = samples := by
  induction samples with
  | nil => rfl
  | cons sample rest ih =>
    have hsample : Int16.ofNat (ofBytes (Pcm.bytes sample)) = sample := by
      rw [ofBytes_bytes]
      apply Int16.toBitVec_inj.1
      simp
    rw [List.flatMap_cons]
    calc samplesOfBytes (Pcm.bytes sample ++ rest.flatMap Pcm.bytes)
        = Int16.ofNat (ofBytes (Pcm.bytes sample)) :: samplesOfBytes (rest.flatMap Pcm.bytes) := rfl
      _ = sample :: rest := by rw [hsample, ih]

def field (bytes : List UInt8) (offset size : Nat) : Nat :=
  ofBytes ((bytes.drop offset).take size)

/--
Whether some bytes are the plain header of a file with so many samples, two bytes each, all channels
counted.
-/
structure IsPlainHeader (bytes : List UInt8) (channels count : Nat) : Prop where
  length_eq : bytes.length = 44
  riff_eq : bytes.take 4 = ascii "RIFF"
  riffSize_eq : field bytes 4 4 = 36 + 2 * count
  wave_eq : (bytes.drop 8).take 8 = ascii "WAVEfmt "
  formatSize_eq : field bytes 16 4 = 16
  format_eq : field bytes 20 2 = 1
  channels_eq : field bytes 22 2 = channels
  sampleRate_eq : field bytes 24 4 = 44100
  byteRate_eq : field bytes 28 4 = 88200 * channels
  frameSize_eq : field bytes 32 2 = 2 * channels
  sampleBits_eq : field bytes 34 2 = 16
  data_eq : (bytes.drop 36).take 4 = ascii "data"
  dataSize_eq : field bytes 40 4 = 2 * count

theorem isPlainHeader_header {channels count : Nat} (hchannels : channels ≤ 2)
    (hcount : count ≤ maxSamples) :
    IsPlainHeader (header channels (2 * count)) channels count := by
  have hmax : maxSamples = 2147483629 := rfl
  have hriff : ofBytes (bytes32 (36 + 2 * count)) = 36 + 2 * count := ofBytes_bytes32 (by omega)
  have hdata : ofBytes (bytes32 (2 * count)) = 2 * count := ofBytes_bytes32 (by omega)
  have hfield : ofBytes (bytes16 channels) = channels := ofBytes_bytes16 (by omega)
  have hrate : ofBytes (bytes32 sampleRate) = 44100 := ofBytes_bytes32 (by decide)
  have hbyteRate : ofBytes (bytes32 (sampleRate * 2 * channels)) = 88200 * channels :=
    ofBytes_bytes32 (by simp only [sampleRate]; omega)
  have hframe : ofBytes (bytes16 (2 * channels)) = 2 * channels := ofBytes_bytes16 (by omega)
  rw [header_eq hchannels]
  exact {
    length_eq := rfl
    riff_eq := rfl
    riffSize_eq := hriff
    wave_eq := rfl
    formatSize_eq := rfl
    format_eq := rfl
    channels_eq := hfield
    sampleRate_eq := hrate
    byteRate_eq := hbyteRate
    frameSize_eq := hframe
    sampleBits_eq := rfl
    data_eq := rfl
    dataSize_eq := hdata }

theorem parse?_header {channels : Nat} (h : channels ≤ 2) (samples : List Int16) :
    parse? (header channels (2 * samples.length) ++ samples.flatMap Pcm.bytes)
      = some { channels, samples } := by
  have hlength : (header channels (2 * samples.length)).length = headerSize channels :=
    length_header ..
  have hchannels : ofBytes (((header channels (2 * samples.length)
      ++ samples.flatMap Pcm.bytes).drop 22).take 2) = channels := by
    rw [header_eq h]
    exact ofBytes_bytes16 (by omega)
  have hwhole : 2 * samples.length % 2 = 0 := Nat.mul_mod_right 2 _
  simp only [parse?, hchannels]
  rw [List.drop_left' hlength, List.take_left' hlength, length_flatMap_bytes,
    if_pos ⟨rfl, hwhole⟩, samplesOfBytes_flatMap]

end Wav

namespace Recorder

open Wav (Library Writer)

variable {recorder : Recorder} {files : Files} {channels : Nat}

theorem pcm_eq (recorder : Recorder) (block : Block) :
    recorder.pcm block = (recorder.samplesOf [block]).flatMap Pcm.bytes := by
  rw [pcm_eq_flatMap, samplesOf_singleton]

theorem directories_create {after : Files} {path : String} {scaler : Float32}
    (h : Recorder.create files path channels scaler = .ok (recorder, after)) :
    after.directories = files.directories := by
  obtain ⟨-, -, rfl⟩ := of_create h
  rfl

theorem directories_writeBlock (recorder : Recorder) (block : Block) (files : Files) :
    (recorder.writeBlock block files).2.2.directories = files.directories := by
  unfold writeBlock
  dsimp only
  split
  · rfl
  · have happend := recorder.writer.differ_append files
      (block.toList.map (Pcm.ofSample recorder.scaler))
    exact (Writer.differ_flush _ _).directories_eq.trans happend.directories_eq

/--
A recording of one or two channels is a valid file all along. After the blocks that were written so
far, which may be none, the path holds a plain header for them and the bytes of their samples, which
a reader gets back. To finish the recording changes nothing.
-/
theorem content_of_writeBlocks {after : Files} {path : String} {scaler : Float32}
    (hchannels : channels = 1 ∨ channels = 2)
    (hcreate : Recorder.create files path channels scaler = .ok (recorder, after))
    (blocks : List Block) (hwhole : ∀ block ∈ blocks, block.size % channels = 0)
    (hroom : (blocks.map Array.size).sum ≤ Wav.maxSamples) :
    ∃ last written bytes,
      recorder.writeBlocks after blocks = (.ok (), last, written) ∧
      written.read path = .ok bytes ∧
      last.written = (blocks.map Array.size).sum ∧
      Wav.IsPlainHeader (bytes.toList.take 44) channels last.written ∧
      bytes.toList.drop 44
        = ((blocks.flatMap Array.toList).map (Pcm.ofSample scaler)).flatMap Pcm.bytes ∧
      Wav.parse? bytes.toList
        = some { channels, samples := (blocks.flatMap Array.toList).map (Pcm.ofSample scaler) } ∧
      (last.finish written).1 = .ok () ∧
      (last.finish written).2.read path = .ok bytes ∧
      ∀ way, (last.finish written).2.contents.lookup way = written.contents.lookup way := by
  have hle : channels ≤ 2 := by omega
  obtain ⟨way, last, written, closed, htarget, hblocks, hcount, hdiffer, ⟨bytes, hlookup, hbytes⟩,
    hfinish, hdiffer', bytes', hlookup', hbytes'⟩ :=
    Writer.laws.exists_recording hle hcreate hwhole hroom
  have hsame : bytes' = bytes := Array.toList_inj.1 (hbytes'.trans hbytes.symm)
  subst hsame
  have hlength : ((blocks.flatMap Array.toList).map (Pcm.ofSample scaler)).length
      = last.written := by
    rw [hcount]
    simp [List.length_flatMap]
  have hheader : (Wav.header channels (2 * last.written)).length = 44 := by
    rw [Wav.length_header, Wav.headerSize_of_le hle]
  refine ⟨last, written, bytes', hblocks, Files.read_of_target hdiffer.directories_eq htarget
    hlookup, hcount, ?_, ?_, ?_, ?_, ?_, ?_⟩
  · rw [hbytes, List.take_left' hheader]
    exact Wav.isPlainHeader_header hle (by omega)
  · rw [hbytes, List.drop_left' hheader]
  · rw [hbytes, ← hlength, Wav.parse?_header hle]
  · rw [hfinish]
  · rw [hfinish]
    exact Files.read_of_target (hdiffer.trans hdiffer').directories_eq htarget hlookup'
  · intro other
    rw [hfinish]
    by_cases hother : other = way
    · rw [hother, hlookup, hlookup']
    · exact hdiffer'.lookup_of_ne hother

def twoFrames : List Block :=
  [#[0.5, -0.5], #[], #[1, 0]]

theorem content_of_writeBlocks_twoFrames :
    ∃ (recorder last : Recorder) (after written : Files) (bytes : Bytes),
      Recorder.create {} "a" 2 Pcm.recordingScaler = .ok (recorder, after) ∧
      recorder.writeBlocks after twoFrames = (.ok (), last, written) ∧
      written.read "a" = .ok bytes ∧ last.written = 4 ∧
      Wav.parse? bytes.toList
        = some { channels := 2, samples := [16384, -16384, 32767, 0] } := by
  have htarget : Files.target {} "a" = .ok ["a"] := by cbv
  have hcreate := create_of_target htarget 2 Pcm.recordingScaler
  obtain ⟨last, written, bytes, hblocks, hread, hcount, -, -, hparse, -⟩ :=
    content_of_writeBlocks (Or.inr rfl) hcreate twoFrames (by decide) (by decide)
  refine ⟨_, last, _, written, bytes, hcreate, hblocks, hread, hcount, hparse.trans ?_⟩
  decide

end Recorder
end PatchSynth
