import PatchSynth.Proofs.Wav.Take

/-!
This module contains what a recorder does to files: its own file stays a header followed by the
samples that were written, and all others stay as they are.
-/

namespace PatchSynth

namespace Bytes

theorem toList_put {bytes : Bytes} {offset : Nat} (h : offset ≤ bytes.size) (byte : UInt8) :
    (bytes.put offset byte).toList
      = bytes.toList.take offset ++ byte :: bytes.toList.drop (offset + 1) := by
  unfold put
  split
  next hlt =>
    rw [Array.toList_set, List.set_eq_take_append_cons_drop, if_pos (by simpa using hlt)]
  next hge =>
    have hsize : offset = bytes.toList.length := by
      rw [Array.length_toList]
      omega
    have hdrop : bytes.toList.drop (offset + 1) = [] := by
      rw [List.drop_eq_nil_iff]
      omega
    have hempty : offset - bytes.size = 0 := by omega
    rw [hdrop, hempty, hsize, List.take_length]
    simp

theorem toList_overwrite {bytes : Bytes} {offset : Nat} (h : offset ≤ bytes.size)
    (list : List UInt8) :
    (bytes.overwrite offset list).toList
      = bytes.toList.take offset ++ list ++ bytes.toList.drop (offset + list.length) := by
  induction list generalizing bytes offset with
  | nil => simp [overwrite]
  | cons byte rest ih =>
    have hput := toList_put h byte
    have hlength : (bytes.toList.take offset).length = offset := by
      rw [List.length_take, Array.length_toList]
      omega
    have hsize : offset + 1 ≤ (bytes.put offset byte).size := by
      rw [← Array.length_toList, hput, List.length_append, List.length_cons, hlength]
      omega
    have htake : (bytes.put offset byte).toList.take (offset + 1)
        = bytes.toList.take offset ++ [byte] := by
      rw [hput, List.take_append, hlength, List.take_of_length_le (by omega)]
      simp
    have hdrop : (bytes.put offset byte).toList.drop (offset + 1 + rest.length)
        = bytes.toList.drop (offset + (rest.length + 1)) := by
      rw [hput, List.drop_append, hlength, List.drop_of_length_le (by omega)]
      have hsub : offset + 1 + rest.length - offset = rest.length + 1 := by omega
      rw [hsub, List.drop_succ_cons, List.drop_drop, List.nil_append]
      congr 1
      omega
    rw [overwrite, ih hsize, htake, hdrop, List.length_cons]
    simp

theorem toList_overwrite_middle {bytes : Bytes} {offset : Nat} {front old new rest : List UInt8}
    (h : bytes.toList = front ++ old ++ rest) (hoffset : front.length = offset)
    (hlength : new.length = old.length) :
    (bytes.overwrite offset new).toList = front ++ new ++ rest := by
  subst hoffset
  have hsize : front.length ≤ bytes.size := by
    rw [← Array.length_toList, h]
    simp
  rw [toList_overwrite hsize, h, hlength, ← List.length_append]
  simp [List.append_assoc]

theorem toList_overwrite_end {bytes : Bytes} {offset : Nat} {front : List UInt8}
    (h : bytes.toList = front) (hoffset : front.length = offset) (new : List UInt8) :
    (bytes.overwrite offset new).toList = front ++ new := by
  subst hoffset
  have hsize : front.length ≤ bytes.size := by
    apply Nat.le_of_eq
    rw [← h, Array.length_toList]
  rw [toList_overwrite hsize, h, List.take_length, List.drop_of_length_le (by omega)]
  simp

end Bytes

namespace Files

theorem lookup_store (way other : Way) (bytes : Bytes) (contents : List (Way × Bytes)) :
    (store way bytes contents).lookup other
      = if other = way then some bytes else contents.lookup other := by
  induction contents with
  | nil =>
    by_cases h : other = way
    · simp [store, h]
    · simp [store, List.lookup_cons, beq_false_of_ne h, h]
  | cons entry rest ih =>
    obtain ⟨first, old⟩ := entry
    unfold store
    by_cases hfirst : first = way
    · subst hfirst
      by_cases h : other = first
      · simp [h]
      · simp [List.lookup_cons, beq_false_of_ne h, h]
    · rw [if_neg hfirst]
      by_cases h : other = first
      · subst h
        simp [hfirst]
      · simp [List.lookup_cons, beq_false_of_ne h, ih]

theorem lookup_overwrite_of_ne {files : Files} {way other : Way} (h : other ≠ way) (offset : Nat)
    (bytes : List UInt8) :
    (files.overwrite way offset bytes).contents.lookup other = files.contents.lookup other := by
  rw [overwrite, lookup_store, if_neg h]

theorem lookup_overwrite {files : Files} {way : Way} {old : Bytes}
    (h : files.contents.lookup way = some old) (offset : Nat) (bytes : List UInt8) :
    (files.overwrite way offset bytes).contents.lookup way = some (old.overwrite offset bytes) := by
  rw [overwrite, lookup_store, if_pos rfl, h]
  rfl

theorem target_eq_ok_iff {files : Files} {path : String} {way : Way} :
    files.target path = .ok way ↔ files.locate path = .ok way ∧ Path.isSlashed path = false ∧
      ∃ old, files.get? way = .ok old := by
  unfold target
  cases files.locate path with
  | error e => simp [bind, Except.bind]
  | ok found =>
    cases Path.isSlashed path with
    | true => simp [bind, Except.bind]
    | false =>
      constructor
      · intro h
        cases hget : files.get? found with
        | error e => simp [hget, bind, Except.bind] at h
        | ok old =>
          simp only [hget, bind, Except.bind, pure, Except.pure] at h
          cases h
          exact ⟨rfl, rfl, old, hget⟩
      · rintro ⟨hfound, -, old, hget⟩
        cases hfound
        simp [hget, bind, Except.bind, pure, Except.pure]

end Files

namespace Wav

def middle (channels : Nat) : List UInt8 :=
  ascii "WAVEfmt " ++ bytes32 16 ++ bytes16 1 ++ bytes16 channels ++ bytes32 sampleRate
    ++ bytes32 (sampleRate * 2 * channels) ++ bytes16 (2 * channels) ++ bytes16 16 ++ ascii "data"

theorem header_eq {channels : Nat} (h : channels ≤ 2) (dataSize : Nat) :
    header channels dataSize
      = ascii "RIFF" ++ bytes32 (36 + dataSize) ++ (middle channels ++ bytes32 dataSize) := by
  have hplain : isPlain channels = true := by simpa [isPlain] using h
  simp only [header, middle, riffSize, headerSize, hplain, if_true, List.append_assoc,
    List.append_nil]

theorem headerSize_of_le {channels : Nat} (h : channels ≤ 2) : headerSize channels = 44 := by
  have hplain : isPlain channels = true := by simpa [isPlain] using h
  rw [headerSize, hplain, if_pos rfl]

end Wav

namespace Wav.Writer

variable {writer : Writer} {files : Files} {channels : Nat}

theorem lookup_sizes (hwriter : writer.channels ≤ 2) (hchannels : channels ≤ 2) {old : Bytes}
    {dataSize : Nat} {data : List UInt8} (hold : files.contents.lookup writer.file = some old)
    (hbytes : old.toList = header channels dataSize ++ data) :
    ∃ new : Bytes,
      (writer.writeDataSize (writer.writeRiffSize files)).contents.lookup writer.file = some new ∧
        new.toList = header channels writer.dataSize ++ data := by
  have hriff : writer.writeRiffSize files
      = files.overwrite writer.file 4 (bytes32 (36 + writer.dataSize)) := by
    rw [writeRiffSize, riffSize, headerSize_of_le hwriter]
    rfl
  have hdata : ∀ files : Files, writer.writeDataSize files
      = files.overwrite writer.file 40 (bytes32 writer.dataSize) := by
    intro files
    rw [writeDataSize, dataSizeOffset, headerSize_of_le hwriter]
  -- The RIFF size stands at offset 4 and the size of the samples at offset 40, right before the end
  -- of a header for one or two channels.
  rw [hriff, hdata]
  have hfirst := Files.lookup_overwrite hold 4 (bytes32 (36 + writer.dataSize))
  refine ⟨_, Files.lookup_overwrite hfirst 40 (bytes32 writer.dataSize), ?_⟩
  rw [header_eq hchannels, List.append_assoc] at hbytes
  have hriffBytes : (old.overwrite 4 (bytes32 (36 + writer.dataSize))).toList
      = ascii "RIFF" ++ bytes32 (36 + writer.dataSize)
        ++ (middle channels ++ bytes32 dataSize ++ data) :=
    Bytes.toList_overwrite_middle hbytes rfl rfl
  have hsplit : (old.overwrite 4 (bytes32 (36 + writer.dataSize))).toList
      = (ascii "RIFF" ++ bytes32 (36 + writer.dataSize) ++ middle channels)
        ++ bytes32 dataSize ++ data := by
    simpa only [List.append_assoc] using hriffBytes
  have hdataBytes : ((old.overwrite 4 (bytes32 (36 + writer.dataSize))).overwrite 40
      (bytes32 writer.dataSize)).toList
      = (ascii "RIFF" ++ bytes32 (36 + writer.dataSize) ++ middle channels)
        ++ bytes32 writer.dataSize ++ data :=
    Bytes.toList_overwrite_middle hsplit rfl rfl
  rw [hdataBytes, header_eq hchannels]
  simp only [List.append_assoc]

theorem lookup_sizes_of_ne {way : Way} (h : way ≠ writer.file) :
    (writer.writeDataSize (writer.writeRiffSize files)).contents.lookup way
      = files.contents.lookup way := by
  rw [writeDataSize, Files.lookup_overwrite_of_ne h, writeRiffSize, Files.lookup_overwrite_of_ne h]

theorem lookup_writeDueSize_of_ne {way : Way} (h : way ≠ writer.file) :
    (writer.writeDueSize files).contents.lookup way = files.contents.lookup way := by
  unfold writeDueSize
  split
  · exact Files.lookup_overwrite_of_ne h _ _
  · rfl

theorem lookup_append_of_ne {way : Way} (h : way ≠ writer.file) (samples : List Int16) :
    (writer.append samples files).2.contents.lookup way = files.contents.lookup way := by
  rw [append, Files.lookup_overwrite_of_ne h, lookup_writeDueSize_of_ne h]

theorem lookup_flush_of_ne {way : Way} (h : way ≠ writer.file) :
    (writer.flush files).2.2.contents.lookup way = files.contents.lookup way := by
  unfold flush
  dsimp only
  split
  · exact lookup_sizes_of_ne h
  · exact Files.lookup_overwrite_of_ne h _ _

theorem of_create {after : Files} {path : String}
    (h : create files path channels = .ok (writer, after)) :
    writer = { file := writer.file, channels } ∧ files.target path = .ok writer.file ∧
      after = { files with
        contents := Files.store writer.file (header channels 0).toArray files.contents } := by
  unfold create Files.write at h
  cases htarget : files.target path with
  | error e => simp [htarget, bind, Except.bind] at h
  | ok way =>
    simp only [htarget, bind, Except.bind, pure, Except.pure, Except.ok.injEq, Prod.mk.injEq] at h
    obtain ⟨rfl, rfl⟩ := h
    exact ⟨rfl, rfl, rfl⟩

/--
Whether a writer stands at the end of a file that is a header and some bytes of samples. The size in
the header may be an earlier one, and its channels those of another writer.
-/
structure Writes (writer : Writer) (files : Files) (channels size : Nat) (data : List UInt8) :
    Prop where
  writer_le : writer.channels ≤ 2
  channels_le : channels ≤ 2
  length_eq : data.length = writer.dataSize
  position_eq : writer.position = headerSize channels + data.length
  dueSize_eq : writer.dueSize = none
  bytes_eq : ∃ bytes : Bytes, files.contents.lookup writer.file = some bytes ∧
    bytes.toList = header channels size ++ data

namespace Writes

variable {size : Nat} {data : List UInt8}

theorem append (h : writer.Writes files channels size data) (samples : List Int16) :
    (writer.append samples files).1.Writes (writer.append samples files).2 channels size
      (data ++ samples.flatMap Pcm.bytes) := by
  obtain ⟨bytes, hbytes, hlist⟩ := h.bytes_eq
  -- The writer goes on at the end of the file.
  have hfront : (header channels size ++ data).length = writer.position := by
    rw [List.length_append, length_header, h.position_eq]
  have hdue : writer.writeDueSize files = files := by
    rw [writeDueSize, h.dueSize_eq]
  refine ⟨h.writer_le, h.channels_le, ?_, ?_, rfl, ?_⟩
  · rw [List.length_append, h.length_eq, length_flatMap_bytes]
    simp only [dataSize, Writer.append]
    omega
  · have hposition := h.position_eq
    simp only [Writer.append, List.length_append]
    omega
  · refine ⟨_, Files.lookup_overwrite (hdue ▸ hbytes) writer.position
      (samples.flatMap Pcm.bytes), ?_⟩
    rw [Bytes.toList_overwrite_end hlist hfront, List.append_assoc]

theorem exists_sizes (h : writer.Writes files channels size data) :
    ∃ bytes : Bytes,
      (writer.writeDataSize (writer.writeRiffSize files)).contents.lookup writer.file
        = some bytes ∧ bytes.toList = header channels data.length ++ data := by
  obtain ⟨bytes, hbytes, hlist⟩ := h.bytes_eq
  rw [h.length_eq]
  exact lookup_sizes h.writer_le h.channels_le hbytes hlist

theorem flush (h : writer.Writes files channels size data) (hwhole : writer.isWhole = true) :
    writer.flush files = (.ok (), writer, writer.writeDataSize (writer.writeRiffSize files)) ∧
      writer.Writes (writer.writeDataSize (writer.writeRiffSize files)) channels data.length
        data := by
  refine ⟨?_, { h with bytes_eq := h.exists_sizes }⟩
  simp only [Writer.flush, hwhole, if_true]

end Writes

end Wav.Writer

namespace Recorder

open Wav (Library Writer)

variable {recorder : Recorder} {files : Files} {channels channels' : Nat}

def pcm (recorder : Recorder) (block : Block) : List UInt8 :=
  block.toList.flatMap fun sample => Pcm.bytes (Pcm.ofSample recorder.scaler sample)

theorem pcm_eq_flatMap (recorder : Recorder) (block : Block) :
    recorder.pcm block = (block.toList.map (Pcm.ofSample recorder.scaler)).flatMap Pcm.bytes := by
  rw [pcm, List.flatMap_map]

@[simp]
theorem length_pcm (recorder : Recorder) (block : Block) :
    (recorder.pcm block).length = 2 * block.size := by
  rw [pcm_eq_flatMap, Wav.length_flatMap_bytes, List.length_map, Array.length_toList]

@[simp]
theorem pcm_take (recorder : Recorder) (block : Block) :
    (recorder.take block).2.pcm = recorder.pcm := by
  funext other
  rw [pcm, pcm, scaler_take]

structure Holds (recorder : Recorder) (files : Files) (channels : Nat) (data : List UInt8) :
    Prop where
  channels_le : channels ≤ 2
  length_eq : data.length = 2 * recorder.written
  bytes_eq : ∃ bytes : Bytes, files.contents.lookup recorder.file = some bytes ∧
    bytes.toList = Wav.header channels data.length ++ data

theorem Holds.writes {data : List UInt8} (h : recorder.Holds files channels data)
    (hrecorder : recorder.InOrder channels') (hchannels : channels' ≤ 2) :
    recorder.writer.Writes files channels data.length data where
  writer_le := hrecorder.channels_eq.trans_le hchannels
  channels_le := h.channels_le
  length_eq := by rw [h.length_eq, Writer.dataSize, hrecorder.count_eq]
  position_eq := by
    rw [hrecorder.position_eq, h.length_eq, Wav.headerSize_of_le hchannels,
      Wav.headerSize_of_le h.channels_le]
  dueSize_eq := hrecorder.dueSize_eq
  bytes_eq := h.bytes_eq

theorem Holds.writeBlock {data : List UInt8} (h : recorder.Holds files channels data)
    (hrecorder : recorder.InOrder channels') (hchannels : channels' ≤ 2) {block : Block}
    (hwhole : block.size % channels' = 0) (hroom : recorder.written + block.size ≤ Wav.maxSamples) :
    (recorder.take block).2.Holds (recorder.writeBlock block files).2.2 channels
      (data ++ recorder.pcm block) := by
  have happend := (h.writes hrecorder hchannels).append
    (block.toList.map (Pcm.ofSample recorder.scaler))
  rw [← pcm_eq_flatMap] at happend
  have hmod : (recorder.writer.append (block.toList.map (Pcm.ofSample recorder.scaler))
      files).1.isWhole = true := by
    have hsize := hrecorder.whole_add hwhole
    rw [← hrecorder.channels_eq, ← hrecorder.count_eq] at hsize
    simp only [Writer.isWhole, Writer.append, List.length_map, Array.length_toList, hsize]
    rfl
  obtain ⟨hflush, hwrites⟩ := happend.flush hmod
  have hwrite : (recorder.writeBlock block files).2.2
      = ((recorder.writer.append (block.toList.map (Pcm.ofSample recorder.scaler)) files).1.flush
          (recorder.writer.append (block.toList.map (Pcm.ofSample recorder.scaler))
            files).2).2.2 := by
    rw [Recorder.writeBlock, if_neg (by omega)]
    rfl
  have htake := take_of_le hrecorder hwhole hroom
  refine ⟨h.channels_le, ?_, ?_⟩
  · rw [htake, List.length_append, length_pcm, h.length_eq]
    dsimp only
    omega
  · rw [hwrite, hflush, file_take]
    exact hwrites.bytes_eq

def gain (recorder : Recorder) (block : Block) : List UInt8 :=
  if Wav.maxSamples < recorder.written + block.size then [] else recorder.pcm block

theorem gain_of_take {block : Block} (h : (recorder.take block).1 = .ok ()) :
    recorder.gain block = recorder.pcm block := by
  have hroom := le_maxSamples_of_take h
  rw [gain, if_neg (by omega)]

theorem Holds.take {data : List UInt8} (h : recorder.Holds files channels data)
    (hrecorder : recorder.InOrder channels') (hchannels : channels' ≤ 2) {block : Block}
    (hwhole : block.size % channels' = 0) :
    (recorder.take block).2.Holds (recorder.writeBlock block files).2.2 channels
      (data ++ recorder.gain block) := by
  unfold gain
  split
  next hlt =>
    rw [take_of_lt hlt, Recorder.writeBlock, if_pos hlt, List.append_nil]
    exact h
  next hroom => exact h.writeBlock hrecorder hchannels hwhole (by omega)

theorem Holds.of_lookup_eq {data : List UInt8} {after : Files}
    (h : recorder.Holds files channels data)
    (hfile : after.contents.lookup recorder.file = files.contents.lookup recorder.file) :
    recorder.Holds after channels data := by
  refine ⟨h.channels_le, h.length_eq, ?_⟩
  rw [hfile]
  exact h.bytes_eq

theorem lookup_writeBlock_of_ne {way : Way} (h : way ≠ recorder.file) (block : Block) :
    (recorder.writeBlock block files).2.2.contents.lookup way = files.contents.lookup way := by
  unfold Recorder.writeBlock
  dsimp only
  split
  · rfl
  · have hlater : way ≠ (recorder.writer.append
        (block.toList.map (Pcm.ofSample recorder.scaler)) files).1.file := h
    exact (Writer.lookup_flush_of_ne hlater).trans (Writer.lookup_append_of_ne h _)

theorem of_create {after : Files} {path : String} {scaler : Float32}
    (h : Recorder.create files path channels scaler = .ok (recorder, after)) :
    recorder = { path, scaler, writer := { file := recorder.file, channels } } ∧
      files.target path = .ok recorder.file ∧
      after = { files with
        contents := Files.store recorder.file (Wav.header channels 0).toArray files.contents } := by
  unfold Recorder.create at h
  cases hcreate : Writer.create files path channels with
  | error e => simp [Library.create, hcreate, bind, Except.bind] at h
  | ok created =>
    simp only [Library.create, hcreate, bind, Except.bind, pure, Except.pure, Except.ok.injEq,
      Prod.mk.injEq] at h
    obtain ⟨rfl, rfl⟩ := h
    obtain ⟨hwriter, htarget, hafter⟩ := Writer.of_create hcreate
    exact ⟨congrArg (Recorder.mk path scaler 0) hwriter, htarget, hafter⟩

theorem create_of_target {path : String} {way : Way} (h : files.target path = .ok way)
    (channels : Nat) (scaler : Float32) :
    Recorder.create files path channels scaler
      = .ok (({ path, scaler, writer := { file := way, channels } } : Recorder), { files with
          contents := Files.store way (Wav.header channels 0).toArray files.contents }) := by
  have hcreate : Writer.create files path channels = .ok ({ file := way, channels }, { files with
      contents := Files.store way (Wav.header channels 0).toArray files.contents }) := by
    unfold Writer.create Files.write
    rw [h]
    rfl
  simp only [Recorder.create, Library.create, hcreate]
  rfl

theorem inOrder_create {after : Files} {path : String} {scaler : Float32}
    (h : Recorder.create files path channels scaler = .ok (recorder, after)) :
    recorder.InOrder channels ∧ recorder.written = 0 := by
  obtain ⟨hrecorder, -, -⟩ := of_create h
  rw [hrecorder]
  exact ⟨⟨rfl, Nat.zero_mod channels, rfl, rfl, rfl⟩, rfl⟩

theorem holds_create {after : Files} {path : String} {scaler : Float32} (hchannels : channels ≤ 2)
    (h : Recorder.create files path channels scaler = .ok (recorder, after)) :
    recorder.Holds after channels [] := by
  obtain ⟨hrecorder, -, rfl⟩ := of_create h
  refine ⟨hchannels, by rw [hrecorder]; rfl, (Wav.header channels 0).toArray, ?_, ?_⟩
  · rw [Files.lookup_store, if_pos rfl]
  · simp

theorem Holds.create {other : Recorder} {after : Files} {path : String} {scaler : Float32}
    (hchannels : channels ≤ 2)
    (h : Recorder.create files path channels scaler = .ok (recorder, after))
    (hother : other.Holds files channels' []) : ∃ channels, other.Holds after channels [] := by
  obtain ⟨-, -, rfl⟩ := of_create h
  by_cases hfile : other.file = recorder.file
  · -- Both write to one file, which starts anew with the header of the later recorder.
    refine ⟨channels, hchannels, hother.length_eq, (Wav.header channels 0).toArray, ?_, ?_⟩
    · rw [Files.lookup_store, if_pos hfile]
    · simp
  · refine ⟨channels', hother.of_lookup_eq ?_⟩
    rw [Files.lookup_store, if_neg hfile]

theorem lookup_finish_of_ne {way : Way} (h : way ≠ recorder.file) :
    (recorder.finish files).2.contents.lookup way = files.contents.lookup way :=
  Writer.lookup_sizes_of_ne h

theorem Holds.finish {other : Recorder} (hother : other.Holds files channels [])
    (hrecorder : recorder.InOrder channels') (hchannels : channels' ≤ 2)
    (hempty : recorder.written = 0) : other.Holds (recorder.finish files).2 channels [] := by
  obtain ⟨bytes, hbytes, hlist⟩ := hother.bytes_eq
  by_cases hfile : other.file = recorder.file
  · -- The closing recorder writes sizes that are zero, as those in the file are.
    have hzero : recorder.writer.dataSize = 0 := by
      rw [Writer.dataSize, hrecorder.count_eq, hempty]
    rw [hfile] at hbytes
    have hsizes := Writer.lookup_sizes (hrecorder.channels_eq.trans_le hchannels)
      hother.channels_le hbytes hlist
    rw [hzero, ← file, ← hfile] at hsizes
    exact ⟨hother.channels_le, hother.length_eq, hsizes⟩
  · exact hother.of_lookup_eq (lookup_finish_of_ne hfile)

theorem Holds.lookup_finish {data : List UInt8} (h : recorder.Holds files channels data)
    (hrecorder : recorder.InOrder channels') (hchannels : channels' ≤ 2) (way : Way) :
    (recorder.finish files).2.contents.lookup way = files.contents.lookup way := by
  by_cases hway : way = recorder.file
  · subst hway
    obtain ⟨bytes, hbytes, hlist⟩ := h.bytes_eq
    obtain ⟨new, hnew, hsizes⟩ := (h.writes hrecorder hchannels).exists_sizes
    rw [hbytes, ← Array.toList_inj.1 (hsizes.trans hlist.symm)]
    exact hnew
  · exact lookup_finish_of_ne hway

end Recorder
end PatchSynth
