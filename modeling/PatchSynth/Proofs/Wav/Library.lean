import PatchSynth.Proofs.Wav.File

/-!
This module contains what recorders rely on in the library that writes their files, `Library.Laws`:
samples are appended as their bytes, and an update rewrites the two sizes and leaves the writer
where it was. Whatever library keeps to this, a recorder leaves a header and the samples of its
blocks.
-/

namespace PatchSynth

structure Files.Differ (way : Way) (files after : Files) : Prop where
  directories_eq : after.directories = files.directories
  lookup_of_ne : ∀ {other : Way}, other ≠ way →
    after.contents.lookup other = files.contents.lookup other

namespace Files.Differ

variable {way : Way} {files next after : Files}

theorem refl (way : Way) (files : Files) : Differ way files files :=
  ⟨rfl, fun _ => rfl⟩

theorem trans (h : Differ way files next) (hafter : Differ way next after) :
    Differ way files after :=
  ⟨hafter.directories_eq.trans h.directories_eq,
    fun hne => (hafter.lookup_of_ne hne).trans (h.lookup_of_ne hne)⟩

end Files.Differ

namespace Wav

def IsFile (files : Files) (way : Way) (channels count : Nat) (samples : List Int16) : Prop :=
  ∃ bytes : Bytes, files.contents.lookup way = some bytes ∧
    bytes.toList = header channels (2 * count) ++ samples.flatMap Pcm.bytes

/--
What is relied on in a library. `Stands` tells of a writer that it stands at the end of a file with
some samples, whose header has the size of so many.
-/
structure Library.Laws {Writer : Type} [Library Writer]
    (Stands : Writer → Files → Way → Nat → Nat → List Int16 → Prop) : Prop where
  isFile : ∀ {writer : Writer} {files : Files} {way : Way} {channels count : Nat}
    {samples : List Int16}, Stands writer files way channels count samples →
      IsFile files way channels count samples
  create : ∀ {files after : Files} {path : String} {channels : Nat} {writer : Writer},
    channels ≤ 2 → Library.create files path channels = .ok (writer, after) →
      ∃ way, files.target path = .ok way ∧ files.Differ way after ∧
        Stands writer after way channels 0 []
  append : ∀ {writer : Writer} {files : Files} {way : Way} {channels count : Nat}
    {samples : List Int16}, Stands writer files way channels count samples →
      ∀ more, files.Differ way (Library.append writer more files).2 ∧
        Stands (Library.append writer more files).1 (Library.append writer more files).2 way
          channels count (samples ++ more)
  flush : ∀ {writer : Writer} {files : Files} {way : Way} {channels count : Nat}
    {samples : List Int16}, Stands writer files way channels count samples →
      samples.length % channels = 0 → samples.length ≤ maxSamples →
        ∃ next after, Library.flush writer files = (.ok (), next, after) ∧
          files.Differ way after ∧ Stands next after way channels samples.length samples
  finalize : ∀ {writer : Writer} {files : Files} {way : Way} {channels count : Nat}
    {samples : List Int16}, Stands writer files way channels count samples →
      samples.length % channels = 0 → samples.length ≤ maxSamples →
        ∃ after, Library.finalize writer files = (.ok (), after) ∧ files.Differ way after ∧
          IsFile after way channels samples.length samples

namespace Writer

def Stands (writer : Writer) (files : Files) (way : Way) (channels count : Nat)
    (samples : List Int16) : Prop :=
  writer.file = way ∧ writer.channels = channels ∧
    writer.Writes files channels (2 * count) (samples.flatMap Pcm.bytes)

variable {writer : Writer} {files : Files} {way : Way} {channels count : Nat}
  {samples : List Int16}

theorem Stands.isFile (h : writer.Stands files way channels count samples) :
    IsFile files way channels count samples := by
  obtain ⟨rfl, -, hwrites⟩ := h
  exact hwrites.bytes_eq

theorem Stands.isWhole_eq (h : writer.Stands files way channels count samples)
    (hwhole : samples.length % channels = 0) : writer.isWhole = true := by
  obtain ⟨-, rfl, hwrites⟩ := h
  have hlength := hwrites.length_eq
  rw [length_flatMap_bytes, dataSize] at hlength
  have hcount : writer.count = samples.length := by omega
  rw [isWhole, hcount, hwhole]
  rfl

theorem differ_writeDueSize (writer : Writer) (files : Files) :
    files.Differ writer.file (writer.writeDueSize files) := by
  refine ⟨?_, fun hne => lookup_writeDueSize_of_ne hne⟩
  unfold writeDueSize
  split <;> rfl

theorem differ_append (writer : Writer) (files : Files) (samples : List Int16) :
    files.Differ writer.file (writer.append samples files).2 :=
  ⟨(writer.differ_writeDueSize files).directories_eq, fun hne => lookup_append_of_ne hne samples⟩

theorem differ_sizes (writer : Writer) (files : Files) :
    files.Differ writer.file (writer.writeDataSize (writer.writeRiffSize files)) :=
  ⟨rfl, fun hne => lookup_sizes_of_ne hne⟩

theorem differ_flush (writer : Writer) (files : Files) :
    files.Differ writer.file (writer.flush files).2.2 := by
  refine ⟨?_, fun hne => lookup_flush_of_ne hne⟩
  unfold flush
  dsimp only
  split <;> rfl

theorem stands_create {after : Files} {path : String} (hchannels : channels ≤ 2)
    (hcreate : create files path channels = .ok (writer, after)) :
    ∃ way, files.target path = .ok way ∧ files.Differ way after ∧
      writer.Stands after way channels 0 [] := by
  obtain ⟨hwriter, htarget, rfl⟩ := of_create hcreate
  generalize writer.file = file at *
  subst hwriter
  refine ⟨file, htarget, ⟨rfl, ?_⟩, rfl, rfl, ?_⟩
  · intro other hne
    rw [Files.lookup_store, if_neg hne]
  · refine ⟨hchannels, hchannels, rfl, rfl, rfl, (header channels 0).toArray, ?_, ?_⟩
    · rw [Files.lookup_store, if_pos rfl]
    · simp

theorem Stands.append (h : writer.Stands files way channels count samples)
    (more : List Int16) :
    files.Differ way (writer.append more files).2 ∧
      (writer.append more files).1.Stands (writer.append more files).2 way channels count
        (samples ++ more) := by
  obtain ⟨rfl, hchannels, hwrites⟩ := h
  refine ⟨writer.differ_append files more, rfl, hchannels, ?_⟩
  rw [List.flatMap_append]
  exact hwrites.append more

theorem Stands.flush (h : writer.Stands files way channels count samples)
    (hwhole : samples.length % channels = 0) :
    ∃ next after, writer.flush files = (.ok (), next, after) ∧ files.Differ way after ∧
      next.Stands after way channels samples.length samples := by
  have hall := h.isWhole_eq hwhole
  obtain ⟨rfl, hchannels, hwrites⟩ := h
  obtain ⟨hflush, hflushed⟩ := hwrites.flush hall
  rw [length_flatMap_bytes] at hflushed
  exact ⟨writer, _, hflush, writer.differ_sizes files, rfl, hchannels, hflushed⟩

theorem Stands.finalize (h : writer.Stands files way channels count samples)
    (hwhole : samples.length % channels = 0) :
    ∃ after, writer.finalize files = (.ok (), after) ∧ files.Differ way after ∧
      IsFile after way channels samples.length samples := by
  have hall := h.isWhole_eq hwhole
  obtain ⟨rfl, -, hwrites⟩ := h
  have hok : (writer.finalize files).1 = .ok () := by
    rw [Writer.finalize, hall, if_pos rfl]
  have hsizes := hwrites.exists_sizes
  rw [length_flatMap_bytes] at hsizes
  exact ⟨_, Prod.ext hok rfl, writer.differ_sizes files, hsizes⟩

theorem laws : Library.Laws Stands where
  isFile := Stands.isFile
  create := stands_create
  append := Stands.append
  flush := fun h hwhole _ => h.flush hwhole
  finalize := fun h hwhole _ => h.finalize hwhole

end Writer
end Wav

namespace Recorder

open Wav (Library)

section

variable {Writer : Type}

def samplesOf (recorder : Recorder Writer) (blocks : List Block) : List Int16 :=
  (blocks.flatMap Array.toList).map (Pcm.ofSample recorder.scaler)

theorem samplesOf_singleton (recorder : Recorder Writer) (block : Block) :
    recorder.samplesOf [block] = block.toList.map (Pcm.ofSample recorder.scaler) := by
  simp [samplesOf]

theorem samplesOf_cons (recorder : Recorder Writer) (block : Block) (rest : List Block) :
    recorder.samplesOf (block :: rest) = recorder.samplesOf [block] ++ recorder.samplesOf rest := by
  simp [samplesOf]

theorem length_samplesOf (recorder : Recorder Writer) (blocks : List Block) :
    (recorder.samplesOf blocks).length = (blocks.map Array.size).sum := by
  simp [samplesOf, List.length_flatMap]

/--
Whether the file of a recorder is complete: it ends with a whole frame, and its sizes and the count
of the recorder are those of its samples.
-/
structure Complete (Stands : Writer → Files → Way → Nat → Nat → List Int16 → Prop)
    (recorder : Recorder Writer) (files : Files) (way : Way) (channels : Nat)
    (samples : List Int16) : Prop where
  stands : Stands recorder.writer files way channels samples.length samples
  written_eq : recorder.written = samples.length
  whole : samples.length % channels = 0

end

def writeBlocks {Writer : Type} [Library Writer] (recorder : Recorder Writer) (files : Files) :
    List Block → Except FileError Unit × Recorder Writer × Files
  | [] => (.ok (), recorder, files)
  | block :: rest =>
    match recorder.writeBlock block files with
    | (.ok (), recorder, files) => recorder.writeBlocks files rest
    | refused => refused

end Recorder

namespace Wav.Library.Laws

variable {Writer : Type} [Library Writer]
  {Stands : Writer → Files → Way → Nat → Nat → List Int16 → Prop} {recorder : Recorder Writer}
  {files : Files} {way : Way} {channels : Nat} {samples : List Int16}

theorem writeBlock (laws : Laws Stands) (h : recorder.Complete Stands files way channels samples)
    {block : Block} (hblock : block.size % channels = 0)
    (hroom : recorder.written + block.size ≤ maxSamples) :
    ∃ next after, recorder.writeBlock block files = (.ok (), next, after) ∧
      next.scaler = recorder.scaler ∧ next.written = recorder.written + block.size ∧
      files.Differ way after ∧
      next.Complete Stands after way channels (samples ++ recorder.samplesOf [block]) := by
  have hlength : (samples ++ recorder.samplesOf [block]).length = samples.length + block.size := by
    rw [List.length_append, Recorder.length_samplesOf]
    rfl
  have hwhole : (samples ++ recorder.samplesOf [block]).length % channels = 0 := by
    rw [hlength]
    exact Nat.mod_eq_zero_of_dvd
      (Nat.dvd_add (Nat.dvd_of_mod_eq_zero h.whole) (Nat.dvd_of_mod_eq_zero hblock))
  have hwritten := h.written_eq
  obtain ⟨hdiffer, happend⟩ := laws.append h.stands (recorder.samplesOf [block])
  obtain ⟨next, after, hflush, hdiffer', hstands⟩ := laws.flush happend hwhole (by omega)
  refine ⟨{ recorder with written := recorder.written + block.size, writer := next }, after, ?_,
    rfl, rfl, hdiffer.trans hdiffer', hstands, ?_, hwhole⟩
  · rw [Recorder.writeBlock, ← Recorder.samplesOf_singleton]
    dsimp only
    rw [if_neg (by omega), hflush]
  · dsimp only
    omega

theorem writeBlocks (laws : Laws Stands) (h : recorder.Complete Stands files way channels samples)
    {blocks : List Block} (hblocks : ∀ block ∈ blocks, block.size % channels = 0)
    (hroom : recorder.written + (blocks.map Array.size).sum ≤ maxSamples) :
    ∃ last after, recorder.writeBlocks files blocks = (.ok (), last, after) ∧
      files.Differ way after ∧
      last.Complete Stands after way channels (samples ++ recorder.samplesOf blocks) := by
  induction blocks generalizing recorder files samples with
  | nil =>
    refine ⟨recorder, files, rfl, Files.Differ.refl way files, ?_⟩
    have hnone : samples ++ recorder.samplesOf [] = samples := List.append_nil samples
    rw [hnone]
    exact h
  | cons block rest ih =>
    rw [List.forall_mem_cons] at hblocks
    rw [List.map_cons, List.sum_cons] at hroom
    obtain ⟨next, after, hwrite, hscaler, hwritten, hdiffer, hnext⟩ :=
      laws.writeBlock h hblocks.1 (by omega)
    obtain ⟨last, final, hrest, hdiffer', hlast⟩ := ih hnext hblocks.2 (by omega)
    -- The samples of the other blocks have the scale of the recorder at the start.
    have hsame : next.samplesOf rest = recorder.samplesOf rest := by
      rw [Recorder.samplesOf, Recorder.samplesOf, hscaler]
    rw [hsame, List.append_assoc, ← Recorder.samplesOf_cons] at hlast
    refine ⟨last, final, ?_, hdiffer.trans hdiffer', hlast⟩
    rw [Recorder.writeBlocks, hwrite]
    exact hrest

theorem complete_create (laws : Laws Stands) (hchannels : channels ≤ 2) {after : Files}
    {path : String} {scaler : Float32}
    (hcreate : Recorder.create files path channels scaler = .ok (recorder, after)) :
    recorder.scaler = scaler ∧ ∃ way, files.target path = .ok way ∧ files.Differ way after ∧
      recorder.Complete Stands after way channels [] := by
  unfold Recorder.create at hcreate
  cases hnew : (Library.create files path channels : Except FileError (Writer × Files)) with
  | error e => simp [hnew, bind, Except.bind] at hcreate
  | ok created =>
    simp only [hnew, bind, Except.bind, pure, Except.pure, Except.ok.injEq, Prod.mk.injEq]
      at hcreate
    obtain ⟨rfl, rfl⟩ := hcreate
    obtain ⟨way, htarget, hdiffer, hstands⟩ := laws.create hchannels hnew
    exact ⟨rfl, way, htarget, hdiffer, hstands, rfl, Nat.zero_mod channels⟩

theorem exists_recording (laws : Laws Stands) (hchannels : channels ≤ 2) {after : Files}
    {path : String} {scaler : Float32}
    (hcreate : Recorder.create files path channels scaler = .ok (recorder, after))
    {blocks : List Block} (hblocks : ∀ block ∈ blocks, block.size % channels = 0)
    (hroom : (blocks.map Array.size).sum ≤ maxSamples) :
    ∃ way last written closed, files.target path = .ok way ∧
      recorder.writeBlocks after blocks = (.ok (), last, written) ∧
      last.written = (blocks.map Array.size).sum ∧ files.Differ way written ∧
      IsFile written way channels last.written
        ((blocks.flatMap Array.toList).map (Pcm.ofSample scaler)) ∧
      last.finish written = (.ok (), closed) ∧ written.Differ way closed ∧
      IsFile closed way channels last.written
        ((blocks.flatMap Array.toList).map (Pcm.ofSample scaler)) := by
  obtain ⟨rfl, way, htarget, hdiffer, hnew⟩ := laws.complete_create hchannels hcreate
  have hzero : recorder.written = 0 := hnew.written_eq
  obtain ⟨last, written, hwrite, hdiffer', hlast⟩ := laws.writeBlocks hnew hblocks (by omega)
  have hlength := recorder.length_samplesOf blocks
  have hwritten := hlast.written_eq
  rw [List.nil_append] at hlast hwritten
  obtain ⟨closed, hfinish, hdiffer'', hclosed⟩ :=
    laws.finalize hlast.stands hlast.whole (by omega)
  refine ⟨way, last, written, closed, htarget, hwrite, by omega, hdiffer.trans hdiffer', ?_,
    hfinish, hdiffer'', ?_⟩
  · rw [hwritten]
    exact laws.isFile hlast.stands
  · rw [hwritten]
    exact hclosed

end Wav.Library.Laws
end PatchSynth
