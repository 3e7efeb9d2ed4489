import PatchSynth.Proofs.Rack.Reel
import PatchSynth.Proofs.Studio.Cause

/-!
This module contains recordings in the course of a session. The file of a recording holds what its
node was filled with while the recording lasted, whoever asked for the blocks and whatever became of
the calls. To ask for a second recording of the node changes nothing, and no recording is left in
the middle of a frame.
-/

namespace PatchSynth

theorem Rack.isRecording_eq (rack : Rack) (id : Nat) :
    rack.isRecording id = (rack.fileOf id).isSome := by
  unfold isRecording fileOf
  cases rack.nodes[id]? with
  | none => rfl
  | some node => cases hrecorder : node.recorder <;> simp [hrecorder]

theorem Rack.record_of_isRecording {rack : Rack} {id : Nat} (h : rack.isRecording id = true)
    (path : String) (scaler : Float32) : rack.record id path scaler = (.ok (), rack) := by
  unfold isRecording at h
  unfold record
  split at h
  next node hnode => simp only [hnode, h, if_true]
  next => cases h

namespace Studio

/--
Whether a task starts the recording of a node: it asks for it while the node is not being recorded,
and succeeds.
-/
structure Starts (studio : Studio) (task : Task) (id : Nat) (path : String) (scaler : Float32) :
    Prop where
  asks : studio.Asks task id path scaler
  idle : studio.patch.rack.isRecording id = false
  recording : (studio.perform task).patch.rack.isRecording id = true

def Task.path? : Task → Option String
  | .record _ path _ | .recordNode _ path _ => some path
  | _ => none

def Spares (studio : Studio) (way : Way) : List Task → Prop
  | [] => True
  | task :: rest =>
    (∀ id, (studio.perform task).patch.rack.fileOf id = some way →
      studio.patch.rack.fileOf id = some way) ∧
      (studio.perform task).Spares way rest

/--
The fills of a node in the course of tasks, as long as it is recorded to a file.
-/
def tapes (studio : Studio) (id : Nat) (way : Way) : List Task → List Filling
  | [] => []
  | task :: rest =>
    studio.patch.rack.tapes id way (studio.pulls task) ++ (studio.perform task).tapes id way rest

variable {studio last : Studio} {task : Task} {id : Nat} {path : String} {scaler : Float32}
  {way : Way} {channels : Nat} {kept : List Block} {node : Node} {tasks : List Task}

theorem Asks.path?_eq (h : studio.Asks task id path scaler) : task.path? = some path := by
  obtain rfl | ⟨name, -, rfl⟩ := h <;> rfl

theorem Asks.allows (h : studio.Asks task id path scaler) : studio.Allows task := by
  obtain rfl | ⟨name, -, rfl⟩ := h <;> trivial

theorem Asks.not_raises (h : studio.Asks task id path scaler)
    (hrecording : studio.patch.rack.isRecording id = true) (e : Error) :
    ¬ studio.Raises task e := by
  have hok : (studio.patch.recordNode id path scaler).1 = .ok () := by
    simp only [Patch.recordNode, hrecording, if_true]
  intro hraises
  obtain rfl | ⟨name, hname, rfl⟩ := h
  · have herror : (studio.patch.recordNode id path scaler).1 = .error e := hraises
    rw [hok] at herror
    cases herror
  · have herror : (studio.patch.record name path scaler).1 = .error e := hraises
    simp only [Patch.record, hname, hok] at herror
    cases herror

theorem reel_perform (h : studio.Reached) (hallowed : studio.Allows task)
    (hreel : studio.patch.rack.Reel id way scaler channels kept)
    (hspared : ∀ other, (studio.perform task).patch.rack.fileOf other = some way →
      studio.patch.rack.fileOf other = some way) :
    (studio.perform task).patch.rack.Reel id way scaler channels
      (((studio.patch.rack.tapes id way (studio.pulls task)).map Filling.block).foldl Wav.fit
        kept) := by
  obtain heq | ⟨hpulls, other, path, scaler', hasks⟩ | ⟨hpulls, hquiet⟩ := perform_cases h hallowed
  · rw [heq]
    exact hreel.outputs _
  · have hrecord := hasks.rack_perform
    rw [hrecord] at hspared ⊢
    rw [hpulls, Rack.tapes_nil]
    exact hreel.record other path scaler' hspared
  · rw [hpulls, Rack.tapes_nil]
    -- Neither a new node nor the end of a recording has a say in the file.
    clear hspared
    generalize (studio.perform task).patch.rack = next at hquiet ⊢
    induction hquiet with
    | refl => exact hreel
    | add _ _ hinputs ih => exact ih.add hinputs
    | stop _ other ih => exact ih.stop other

theorem reel_performAll (h : studio.Reached) (hallowed : studio.AllowsAll tasks)
    (hspares : studio.Spares way tasks)
    (hreel : studio.patch.rack.Reel id way scaler channels kept) :
    (studio.performAll tasks).patch.rack.Reel id way scaler channels
      (((studio.tapes id way tasks).map Filling.block).foldl Wav.fit kept) := by
  induction tasks generalizing studio kept with
  | nil => exact hreel
  | cons task rest ih =>
    rw [tapes, List.map_append, List.foldl_append]
    exact ih (h.perform task hallowed.1) hallowed.2 hspares.2
      (reel_perform h hallowed.1 hreel hspares.1)

theorem Starts.record_eq (h : studio.Starts task id path scaler) :
    studio.patch.rack.record id path scaler = (.ok (), (studio.perform task).patch.rack) := by
  have hidle := h.idle
  have hrecording := h.recording
  rw [h.asks.rack_perform] at hrecording ⊢
  cases hresult : studio.patch.rack.record id path scaler with
  | mk result next =>
    cases result with
    | ok _ => rfl
    | error e =>
      rw [hresult, Rack.snd_record_of_error hresult, hidle] at hrecording
      cases hrecording

theorem Starts.fileOf_eq (h : studio.Starts task id path scaler) :
    studio.patch.rack.fileOf id = none := by
  have hidle := h.idle
  rw [Rack.isRecording_eq] at hidle
  simpa using hidle

theorem Starts.target_eq (h : studio.Starts task id path scaler) :
    studio.patch.rack.files.target path = .ok (Path.way path) := by
  obtain ⟨node, hnode, ⟨hbusy, -⟩ | ⟨-, recorder, hcreate, -⟩⟩ := Rack.record_cases h.record_eq
  · have hnone := h.fileOf_eq
    simp [Rack.fileOf, hnode, hbusy] at hnone
  · obtain ⟨-, htarget, -⟩ := Recorder.of_create hcreate
    rw [← Rack.way_of_target htarget]
    exact htarget

theorem tapes_sublist (studio : Studio) (id : Nat) (way : Way) (tasks : List Task) :
    (studio.tapes id way tasks).Sublist (studio.fillings id tasks) := by
  induction tasks generalizing studio with
  | nil => exact List.Sublist.refl _
  | cons task rest ih => exact (Rack.tapes_sublist _ id way _).append (ih _)

theorem of_mem_tapes (h : studio.Reached) (hallowed : studio.AllowsAll tasks)
    (hnode : studio.patch.rack.nodes[id]? = some node) {filling : Filling}
    (hmem : filling ∈ studio.tapes id way tasks) :
    ∃ earlier task rest pull, tasks = earlier ++ task :: rest ∧
      (studio.performAll earlier).patch.rack.fileOf id = some way ∧
      pull ∈ (studio.performAll earlier).pulls task ∧ filling.request = pull.1.clamped ∧
      filling.Genuine id ∧ filling.before.device = node.device := by
  induction tasks generalizing studio node with
  | nil => cases hmem
  | cons task rest ih =>
    rw [tapes, List.mem_append] at hmem
    obtain hmem | hmem := hmem
    · rw [Rack.tapes] at hmem
      split at hmem
      next hfile =>
        obtain ⟨hgenuine, hshape, pull, hpull, hrequest⟩ :=
          Rack.genuine_of_mem_fillings h.reachable.wellFormed hmem
        obtain ⟨found, hfound, hdevice, -⟩ := Rack.exists_of_shape hshape hgenuine.node_eq
        rw [hnode] at hfound
        cases hfound
        exact ⟨[], task, rest, pull, rfl, hfile, hpull, hrequest, hgenuine,
          by rw [hdevice, hgenuine.device_eq]⟩
      next => cases hmem
    · obtain ⟨now, hnow, hdevice⟩ := (h.onward hallowed.1).later.device_eq hnode
      obtain ⟨earlier, other, later, pull, rfl, hfile, hpull, hrequest, hgenuine, hbefore⟩ :=
        ih (h.perform task hallowed.1) hallowed.2 hnow hmem
      exact ⟨task :: earlier, other, later, pull, rfl, hfile, hpull, hrequest, hgenuine,
        hbefore.trans hdevice⟩

theorem spares_of_ways (h : studio.Reached) (hallowed : studio.AllowsAll tasks)
    (hways : ∀ task ∈ tasks, ∀ path, task.path? = some path → Path.way path ≠ way) :
    studio.Spares way tasks := by
  induction tasks generalizing studio with
  | nil => trivial
  | cons task rest ih =>
    have hrest : ∀ task ∈ rest, ∀ path, task.path? = some path → Path.way path ≠ way :=
      fun task hmem => hways task (List.mem_cons_of_mem _ hmem)
    refine ⟨?_, ih (h.perform task hallowed.1) hallowed.2 hrest⟩
    intro other hother
    obtain heq | ⟨-, id, path, scaler, hasks⟩ | ⟨-, hquiet⟩ := perform_cases h hallowed.1
    · rw [heq, Rack.fileOf_outputs] at hother
      exact hother
    · rw [hasks.rack_perform] at hother
      apply Rack.fileOf_of_record _ hother
      exact hways task List.mem_cons_self path hasks.path?_eq
    · generalize (studio.perform task).patch.rack = next at hquiet hother
      induction hquiet with
      | refl => exact hother
      | add _ _ _ ih => exact ih (Rack.fileOf_of_add hother)
      | stop _ _ ih => exact ih (Rack.fileOf_of_stop hother)

/--
A recording that takes effect holds, at every moment of the session that follows, the samples of
what its node was filled with as long as it lasted. Each fill counts once, whoever asked for it and
whatever became of the call, and a read from the cache counts for nothing. Only what exceeds the
sizes of a header is left out. A second recording of a node that is being recorded changes nothing,
and standard nodes never leave a frame unfinished.
-/
theorem content_of_recording (h : studio.Reached) (hstarts : studio.Starts task id path scaler)
    (hfree : ∀ other, studio.patch.rack.fileOf other ≠ some (Path.way path))
    (hnode : studio.patch.rack.nodes[id]? = some node)
    (hallowed : (studio.perform task).AllowsAll tasks)
    (hspares : (studio.perform task).Spares (Path.way path) tasks)
    (hlast : (studio.perform task).performAll tasks = last) {fills : List Filling}
    (hfills : (studio.perform task).tapes id (Path.way path) tasks = fills) :
    (∃ bytes data, last.patch.rack.files.read path = .ok bytes ∧
      last.patch.close.read path = .ok bytes ∧
      bytes.toList = Wav.header node.device.channels data.length ++ data ∧
      data = Pcm.ofBlocks scaler (Wav.fitting (fills.map Filling.block)) ∧
      (Wav.samplesOfBytes data).map Int16.toInt
        = ((Wav.fitting (fills.map Filling.block)).flatMap Array.toList).map
            (Pcm.scaled scaler)) ∧
    (((fills.map Filling.block).map Array.size).sum ≤ Wav.maxSamples →
      Wav.fitting (fills.map Filling.block) = fills.map Filling.block) ∧
    fills.Pairwise (fun filling later => filling.request.timestamp < later.request.timestamp) ∧
    (∀ filling ∈ fills, ∃ earlier other rest pull, tasks = earlier ++ other :: rest ∧
      ((studio.perform task).performAll earlier).patch.rack.fileOf id = some (Path.way path) ∧
      pull ∈ ((studio.perform task).performAll earlier).pulls other ∧
      filling.request = pull.1.clamped ∧ filling.Genuine id ∧
      filling.block.size = min pull.1.frames maxFrames * node.device.channels) ∧
    (∀ {again : Task} {other : Nat} {path' : String} {scaler' : Float32},
      last.patch.rack.isRecording other = true → last.Asks again other path' scaler' →
        (last.perform again).patch.rack = last.patch.rack ∧ ∀ e, ¬ last.Raises again e) ∧
    (last.patch.rack.Standard → ∀ other, ¬ last.Raises other (.file .unfinishedFrame)) := by
  have hallowsTask : studio.Allows task := hstarts.asks.allows
  have hstarted : (studio.perform task).Reached := h.perform task hallowsTask
  have hreached : last.Reached := hlast ▸ hstarted.performAll hallowed
  have hnow : ∃ now, (studio.perform task).patch.rack.nodes[id]? = some now ∧
      now.device = node.device :=
    (h.onward hallowsTask).later.device_eq hnode
  obtain ⟨now, hnow, hdevice⟩ := hnow
  have hreel : last.patch.rack.Reel id (Path.way path) scaler node.device.channels
      (Wav.fitting (fills.map Filling.block)) := by
    rw [← hlast, ← hfills]
    exact reel_performAll hstarted hallowed hspares
      (Rack.Reel.of_record h.reachable.wellFormed hstarts.record_eq hstarts.fileOf_eq hfree hnode)
  have hlater : studio.patch.rack.Later last.patch.rack := by
    rw [← hlast]
    exact (h.onward hallowsTask).later.trans (later_performAll hstarted hallowed)
  refine ⟨?_, Wav.fitting_of_le, ?_, ?_, ?_, ?_⟩
  · -- To give the patch up stops recordings and so leaves the file as it is.
    have hclosed : (last.patch.rack.release [] (last.patch.dropped.toList
        ++ last.patch.table.nodes)).Reel id (Path.way path) scaler node.device.channels
          (Wav.fitting (fills.map Filling.block)) :=
      Rack.keep_release (fun other hrack => hrack.stop other) hreel _ _
    obtain ⟨bytes, hbytes, hlist⟩ := hreel.bytes_eq
    obtain ⟨closed, hclosedBytes, hclosedList⟩ := hclosed.bytes_eq
    have hsame : closed = bytes := Array.toList_inj.1 (hclosedList.trans hlist.symm)
    subst hsame
    have hclosedLater := hlater.trans (Rack.later_release last.patch.rack []
      (last.patch.dropped.toList ++ last.patch.table.nodes))
    exact ⟨closed, _, Files.read_of_target hlater.directories_eq hstarts.target_eq hbytes,
      Files.read_of_target hclosedLater.directories_eq hstarts.target_eq hclosedBytes, hlist, rfl,
      Pcm.samplesOfBytes_ofBlocks _ _⟩
  · rw [← hfills]
    exact (pairwise_fillings hstarted hallowed id).sublist (tapes_sublist _ id _ _)
  · intro filling hmem
    rw [← hfills] at hmem
    obtain ⟨earlier, other, rest, pull, htasks, hfile, hpull, hrequest, hgenuine, hbefore⟩ :=
      of_mem_tapes hstarted hallowed hnow hmem
    have hsize := hgenuine.size_block
    rw [hbefore, hdevice, hrequest] at hsize
    exact ⟨earlier, other, rest, pull, htasks, hfile, hpull, hrequest, hgenuine, hsize⟩
  · intro again other path' scaler' hrecording hasks
    refine ⟨?_, hasks.not_raises hrecording⟩
    rw [hasks.rack_perform, Rack.record_of_isRecording hrecording]
  · intro hstandard other hraises
    obtain ⟨path', hpath⟩ := hraises.isFull hreached hstandard _ rfl
    cases hpath

theorem starts_of_target {name : String} {file : Way}
    (hname : studio.patch.table.get? name = some id) (hlt : id < studio.patch.rack.nodes.size)
    (hidle : studio.patch.rack.isRecording id = false)
    (htarget : studio.patch.rack.files.target path = .ok file) :
    studio.Starts (.record name path scaler) id path scaler := by
  refine ⟨Or.inr ⟨name, hname, rfl⟩, hidle, ?_⟩
  have hok : (studio.patch.record name path scaler).1 = .ok () :=
    Patch.fst_record hname hlt htarget
  cases hresult : studio.patch.record name path scaler with
  | mk result next =>
    rw [hresult] at hok
    cases hok
    obtain ⟨-, found, hfound, hrecord⟩ := Patch.of_record hresult
    rw [hname] at hfound
    cases hfound
    have hnext : (studio.perform (.record name path scaler)).patch = next :=
      congrArg Prod.snd hresult
    rw [Rack.isRecording_eq] at hidle
    rw [hnext, Rack.isRecording_eq, Rack.fileOf_record hrecord (by simpa using hidle), if_pos rfl]
    rfl

def taped : Studio :=
  perform pairedStudio (.record "output" "a" Pcm.recordingScaler)

theorem starts_taped :
    pairedStudio.Starts (.record "output" "a" Pcm.recordingScaler) 2 "a" Pcm.recordingScaler := by
  have htarget : Files.target {} "a" = .ok ["a"] := by cbv
  exact starts_of_target rfl (by decide) rfl htarget

theorem free_taped (other : Nat) :
    pairedStudio.patch.rack.fileOf other ≠ some (Path.way "a") := by
  intro hfile
  obtain ⟨node, recorder, hnode, hrecorder, -⟩ := Rack.exists_of_fileOf hfile
  have hnone : node.recorder = none := Player.built_paired.unrecorded other node hnode
  rw [hnone] at hrecorder
  cases hrecorder

theorem shape_taped : taped.patch.rack.shape = Player.paired.rack.shape := by
  have hsame := pairedStudio.patch.rack.shape_snd_record 2 "a" Pcm.recordingScaler
  rw [starts_taped.record_eq] at hsame
  exact hsame

theorem reached_taped : taped.Reached :=
  reached_paired.perform _ starts_taped.asks.allows

theorem fileOf_taped : taped.patch.rack.fileOf 2 = some (Path.way "a") := by
  have hfile := Rack.fileOf_record starts_taped.record_eq starts_taped.fileOf_eq 2
  rw [if_pos rfl] at hfile
  exact hfile

theorem unplayed_taped : taped.patch.rack.Unplayed :=
  Player.built_paired.unplayed.record starts_taped.record_eq

theorem refresh_taped : (taped.patch.rack.refresh pairedRequest 2).1 = .ok () := by
  have hrack := reached_taped.reachable.wellFormed
  have htyped := Player.built_paired.wellTyped.of_shape shape_taped
  have hplayed : taped.patch.rack.PlayedTo pairedRequest.controls 2 0 pairedRequest.timestamp :=
    Rack.PlayedTo.of_unplayed hrack htyped unplayed_taped _ _
  rw [hplayed.refresh_ok_iff (by decide) (unplayed_taped.hasRoom hrack (by decide))
    (by rw [Rack.size_nodes_of_shape shape_taped]; decide)]
  intro id _
  exact Player.clean_paired hrack shape_taped _ _ id

theorem exists_filling_taped :
    ∃ filling, taped.tapes 2 (Path.way "a") [.output 2 5 2] = [filling] := by
  have hcontrols : taped.controls = {} := rfl
  have hpulls : taped.pulls (.output 2 5 2) = [(pairedRequest, 2)] := by
    rw [pulls, hcontrols, pairedRequest]
  rw [tapes, tapes, hpulls, Rack.tapes, if_pos fileOf_taped, Rack.fillings, Rack.fillings,
    List.append_nil, List.append_nil]
  have houtput := Player.output_paired
  rw [← shape_taped] at houtput
  obtain ⟨before, hbefore, -, -⟩ := Rack.exists_of_getElem?_shape houtput
  obtain ⟨filling, hfilling, -⟩ :=
    Rack.exists_fillingOf reached_taped.reachable.wellFormed hbefore
      (unplayed_taped.isStale hbefore pairedRequest.timestamp) refresh_taped
  exact ⟨filling, by rw [hfilling, Option.toList_some]⟩

theorem content_of_recording_taped :
    ∃ (last : Studio) (bytes : Bytes) (data : List UInt8) (filling : Filling),
      pairedStudio.Starts (.record "output" "a" Pcm.recordingScaler) 2 "a" Pcm.recordingScaler ∧
      taped.performAll [.output 2 5 2] = last ∧
      last.patch.rack.files.read "a" = .ok bytes ∧
      bytes.toList = Wav.header 2 8 ++ data ∧ data.length = 8 ∧
      data = Pcm.ofBlocks Pcm.recordingScaler [filling.block] ∧
      (Wav.samplesOfBytes data).map Int16.toInt
        = filling.block.toList.map (Pcm.scaled Pcm.recordingScaler) ∧
      filling.block.size = 4 ∧
      (last.perform (.recordNode 2 "b" 1)).patch.rack = last.patch.rack ∧
      ∀ task, ¬ last.Raises task (.file .unfinishedFrame) := by
  obtain ⟨node, hnode, hdevice, -⟩ := Rack.exists_of_getElem?_shape Player.output_paired
  obtain ⟨filling, hfills⟩ := exists_filling_taped
  have hchannels : node.device.channels = 2 := by
    rw [hdevice]
    rfl
  have hallowed : taped.AllowsAll [.output 2 5 2] := ⟨trivial, trivial⟩
  have hspares : taped.Spares (Path.way "a") [.output 2 5 2] := by
    apply spares_of_ways reached_taped hallowed
    intro task hmem path hpath
    rw [List.mem_singleton.1 hmem] at hpath
    cases hpath
  obtain ⟨last, hlast⟩ : ∃ last, taped.performAll [.output 2 5 2] = last := ⟨_, rfl⟩
  obtain ⟨⟨bytes, data, hread, -, hlist, hdata, hvalues⟩, hfitting, -, hblocks, hagain, herrors⟩ :=
    content_of_recording reached_paired starts_taped free_taped hnode hallowed hspares hlast hfills
  obtain ⟨earlier, other, rest, pull, htasks, -, hpull, -, -, hsize⟩ :=
    hblocks filling List.mem_cons_self
  -- There is one task only, and it asks for two frames.
  have hframes : pull.1.frames = 2 := by
    cases earlier with
    | nil =>
      cases htasks
      rw [List.mem_singleton.1 hpull]
    | cons task tail =>
      have hlength := congrArg List.length htasks
      simp at hlength
  have hblock : filling.block.size = 4 := by
    rw [hsize, hframes, hchannels]
    decide
  have hfits : Wav.fitting [filling.block] = [filling.block] := by
    apply hfitting
    simp only [List.map_cons, List.map_nil, List.sum_cons, List.sum_nil, hblock]
    decide
  rw [List.map_cons, List.map_nil, hfits] at hdata hvalues
  rw [List.flatMap_cons, List.flatMap_nil, List.append_nil] at hvalues
  have hlength : data.length = 8 := by
    rw [hdata, Pcm.length_ofBlocks]
    simp [hblock]
  rw [hchannels, hlength] at hlist
  have hrack : last.patch.rack
      = (taped.patch.rack.output
          { timestamp := 5, frames := 2, controls := taped.controls } 2).2 := by
    rw [← hlast]
    rfl
  refine ⟨last, bytes, data, filling, starts_taped, hlast, hread, hlist, hlength, hdata,
    hvalues, hblock, ?_, ?_⟩
  · refine (hagain ?_ (Or.inl rfl)).1
    rw [hrack, Rack.isRecording_eq, Rack.fileOf_output, fileOf_taped]
    rfl
  · apply herrors
    apply Rack.Standard.of_wellTyped
    apply Player.built_paired.wellTyped.of_shape
    rw [hrack, Rack.shape_output, shape_taped]

end Studio
end PatchSynth
