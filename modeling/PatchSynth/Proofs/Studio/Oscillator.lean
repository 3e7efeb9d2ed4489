import PatchSynth.Proofs.Device.Oscillator
import PatchSynth.Proofs.Rack.Fed
import PatchSynth.Proofs.Studio.History

/-!
This module contains the oscillators of a session. A node starts with the phase zero, only its fills
move the phase, and a fill on audible frequencies leaves it in the period, however many frames it is
for. So all phases of an oscillator are in the period, and all samples between -1 and 1.
-/

namespace PatchSynth

namespace Filling

variable {filling : Filling} {id frequency : Nat} {waveform : Waveform}

def frequencies (filling : Filling) (frequency : Nat) : Block :=
  (filling.rack.blockOf frequency filling.request.frames).extract 0 filling.request.frames

def Tuned (filling : Filling) : Prop :=
  ∀ waveform frequency, filling.before.device = .oscillator waveform frequency →
    Block.Audible (filling.frequencies frequency)

theorem Genuine.inPeriod_after (h : filling.Genuine id) (htuned : filling.Tuned)
    (hphase : Waveform.InPeriod filling.before.phase) :
    Waveform.InPeriod filling.after.phase := by
  obtain ⟨result, fills, hfill, hafter⟩ := h.filledAs.fill
  have hresult : filling.after.phase = result.phase := by
    rw [hafter]
    simp [Rack.Step.filled, Node.store]
  rw [hresult]
  refine Device.inPeriod_of_fill hfill hphase ?_
  intro waveform feed hdevice
  cases hbefore : filling.before.device with
  | oscillator found frequency =>
    rw [hbefore] at hdevice
    cases hdevice
    exact htuned waveform frequency hbefore
  | _ =>
    rw [hbefore] at hdevice
    cases hdevice

theorem Genuine.run_eq (h : filling.Genuine id)
    (hdevice : filling.before.device = .oscillator waveform frequency) :
    (filling.frequencies frequency).size = filling.request.frames ∧
      waveform.run filling.before.phase (filling.frequencies frequency)
        = { samples := filling.block, phase := filling.after.phase } := by
  have hmem : frequency ∈ filling.after.device.inputs := by
    rw [h.device_eq, hdevice, Device.inputs]
    exact List.mem_singleton_self frequency
  obtain ⟨source, hsource⟩ := h.wellFormed.exists_node_of_input h.node_eq hmem
  have hsize : (filling.frequencies frequency).size = filling.request.frames := by
    have hone := Nat.le_mul_of_pos_right filling.request.frames source.device.one_le_channels
    rw [frequencies, Rack.blockOf, hsource, Array.size_extract,
      Node.size_block (h.wellFormed.sound hsource) h.frames_le]
    omega
  refine ⟨hsize, ?_⟩
  obtain ⟨result, fills, hfill, hafter⟩ := h.filledAs.fill
  rw [hdevice] at hfill
  have hrun : waveform.run filling.before.phase (filling.frequencies frequency) = result :=
    Except.ok.inj hfill
  have hsamples : result.samples.size = filling.request.frames * filling.before.device.channels := by
    have hmono : filling.before.device.channels = 1 := by
      rw [hdevice]
      rfl
    rw [← hrun, Device.size_samples_run, hsize, hmono, Nat.mul_one]
  have hblock : filling.block = result.samples := by
    rw [block, hafter]
    exact (Rack.block_filled _ _).trans (Node.block_store _ hsamples)
  rw [hrun, hblock, hafter]
  simp [Rack.Step.filled, Node.store]

theorem Genuine.frequencies_of_constant (h : filling.Genuine id) {source : Node}
    (hsource : filling.rack.nodes[frequency]? = some source) {value : Float32}
    (hconstant : source.device = .constant value) :
    filling.frequencies frequency = Array.replicate filling.request.frames value := by
  have hframes := Nat.min_eq_left h.frames_le
  have hbuffer := (h.wellFormed.sound hsource).buffer_constant value hconstant
  rw [frequencies, Rack.blockOf, hsource]
  simp [Node.block, hbuffer, hconstant, Device.channels, Device.isStereo, hframes]

end Filling

namespace Rack

variable {rack next : Rack} {id : Nat}

def InPeriod (rack : Rack) (id : Nat) : Prop :=
  ∀ node, rack.nodes[id]? = some node → Waveform.InPeriod node.phase

namespace InPeriod

theorem empty (files : Files) (id : Nat) : InPeriod { files } id := by
  intro node hnode
  simp at hnode

theorem add (h : rack.InPeriod id) (device : Device Nat) : (rack.add device).2.InPeriod id := by
  intro node hnode
  obtain ⟨-, hold⟩ | ⟨-, rfl⟩ := nodes_add_cases hnode
  · exact h node hold
  · exact Waveform.inPeriod_zero

theorem update_recorder (h : rack.InPeriod id) (other : Nat) (recorder : Option Recorder)
    (files : Files) :
    InPeriod { rack.update other fun node => { node with recorder := recorder } with files } id := by
  intro node hnode
  have hnode' : (rack.update other fun node =>
      { node with recorder := recorder }).nodes[id]? = some node := hnode
  obtain ⟨old, hold, rfl | ⟨-, rfl⟩⟩ := nodes_update_cases hnode'
  · exact h node hold
  · exact h old hold

theorem record (h : rack.InPeriod id) (other : Nat) (path : String) (scaler : Float32) :
    (rack.record other path scaler).2.InPeriod id := by
  obtain heq | ⟨_, recorder, files, -, -, heq⟩ := rack.snd_record_cases other path scaler
  · rw [heq]
    exact h
  · rw [heq]
    exact h.update_recorder other (some recorder) files

theorem stop (h : rack.InPeriod id) (other : Nat) : (rack.stop other).2.InPeriod id := by
  obtain heq | ⟨files, heq⟩ := rack.snd_stop_cases other
  · rw [heq]
    exact h
  · rw [heq]
    exact h.update_recorder other none files

theorem output (h : rack.InPeriod id) (hrack : rack.WellFormed) (request : Request) (root : Nat)
    (htuned : ∀ filling ∈ rack.fillingOf request root id, filling.Tuned) :
    (rack.output request root).2.InPeriod id ∧
      ∀ filling ∈ rack.fillingOf request root id, Waveform.InPeriod filling.before.phase := by
  obtain ⟨hnone, hkept⟩ | ⟨filling, hfilling, hgenuine, -, heq, hbefore⟩ :=
    fillingOf_cases hrack request root id
  · refine ⟨?_, by simp [hnone]⟩
    intro node hnode
    obtain ⟨old, hold, -⟩ := exists_of_shape (rack.shape_output request root) hnode
    obtain ⟨fills, hsame⟩ := hkept old hold
    rw [hnode] at hsame
    cases hsame
    exact h old hold
  · have hphase := h filling.before hbefore
    have hafter := hgenuine.node_eq
    rw [heq] at hafter
    refine ⟨?_, ?_⟩
    · intro node hnode
      rw [hafter] at hnode
      cases hnode
      exact hgenuine.inPeriod_after (htuned filling hfilling) hphase
    · intro found hfound
      rw [hfilling] at hfound
      cases hfound
      exact hphase

theorem outputs (h : rack.InPeriod id) (hrack : rack.WellFormed) (pulls : List (Request × Nat))
    (htuned : ∀ filling ∈ rack.fillings id pulls, filling.Tuned) :
    (rack.outputs pulls).InPeriod id ∧
      ∀ filling ∈ rack.fillings id pulls, Waveform.InPeriod filling.before.phase := by
  induction pulls generalizing rack with
  | nil => exact ⟨h, by simp [fillings]⟩
  | cons pull rest ih =>
    simp only [fillings, List.mem_append, Option.mem_toList, or_imp, forall_and] at htuned ⊢
    obtain ⟨hnext, hfirst⟩ := h.output hrack pull.1 pull.2 htuned.1
    obtain ⟨hlast, hrest⟩ := ih hnext (hrack.output pull.1 pull.2) htuned.2
    exact ⟨hlast, hfirst, hrest⟩

end InPeriod

end Rack

namespace Studio

variable {studio : Studio} {id : Nat}

theorem inPeriod_perform (h : studio.Reached) {task : Task} (hallowed : studio.Allows task)
    (hphase : studio.patch.rack.InPeriod id)
    (htuned : ∀ filling ∈ studio.patch.rack.fillings id (studio.pulls task), filling.Tuned) :
    (studio.perform task).patch.rack.InPeriod id ∧
      ∀ filling ∈ studio.patch.rack.fillings id (studio.pulls task),
        Waveform.InPeriod filling.before.phase := by
  obtain ⟨hlast, hfillings⟩ := hphase.outputs h.reachable.wellFormed _ htuned
  refine ⟨?_, hfillings⟩
  obtain heq | ⟨-, other, path, scaler, hasks⟩ | ⟨-, hquiet⟩ := perform_cases h hallowed
  · rw [heq]
    exact hlast
  · rw [hasks.rack_perform]
    exact hphase.record other path scaler
  · generalize (studio.perform task).patch.rack = next at hquiet ⊢
    induction hquiet with
    | refl => exact hphase
    | add _ _ _ ih => exact ih.add _
    | stop _ other ih => exact ih.stop other

theorem inPeriod_performAll (h : studio.Reached) {tasks : List Task}
    (hallowed : studio.AllowsAll tasks) (hphase : studio.patch.rack.InPeriod id)
    (htuned : ∀ filling ∈ studio.fillings id tasks, filling.Tuned) :
    (studio.performAll tasks).patch.rack.InPeriod id ∧
      ∀ filling ∈ studio.fillings id tasks, Waveform.InPeriod filling.before.phase := by
  induction tasks generalizing studio with
  | nil => exact ⟨hphase, by simp [fillings]⟩
  | cons task rest ih =>
    simp only [fillings, List.mem_append, or_imp, forall_and] at htuned ⊢
    obtain ⟨hnext, hfirst⟩ := inPeriod_perform h hallowed.1 hphase htuned.1
    obtain ⟨hlast, hrest⟩ := ih (h.perform task hallowed.1) hallowed.2 hnext htuned.2
    exact ⟨hlast, hfirst, hrest⟩

theorem device_of_mem_fillings (h : studio.Reached) {tasks : List Task}
    (hallowed : studio.AllowsAll tasks) {filling : Filling}
    (hmem : filling ∈ studio.fillings id tasks) {node : Node}
    (hnode : (studio.performAll tasks).patch.rack.nodes[id]? = some node) :
    filling.Genuine id ∧ filling.before.device = node.device := by
  induction tasks generalizing studio with
  | nil => cases hmem
  | cons task rest ih =>
    rw [fillings, List.mem_append] at hmem
    obtain hmem | hmem := hmem
    · obtain ⟨hgenuine, hshape, -⟩ := Rack.genuine_of_mem_fillings h.reachable.wellFormed hmem
      obtain ⟨first, hfirst, hsame, -⟩ := Rack.exists_of_shape hshape hgenuine.node_eq
      obtain ⟨last, hlast, hdevice⟩ := (later_performAll h hallowed).device_eq hfirst
      rw [hnode] at hlast
      cases hlast
      exact ⟨hgenuine, by rw [hdevice, hsame, hgenuine.device_eq]⟩
    · exact ih (h.perform task hallowed.1) hallowed.2 hmem hnode

/--
An oscillator stays in its period and between -1 and 1 for ever, as long as its fills are on audible
frequencies. After every frame of every fill, for however many frames it is, the phase is in the
period. For the sine, the sine function has to stay between -1 and 1.
-/
theorem inPeriod_of_session {files : Files} {tasks : List Task}
    (hallowed : (fresh files).AllowsAll tasks) {node : Node} {waveform : Waveform} {frequency : Nat}
    (hnode : ((fresh files).performAll tasks).patch.rack.nodes[id]? = some node)
    (hdevice : node.device = .oscillator waveform frequency)
    (hsine : waveform = .sine →
      ∀ x, Single.isFinite x = true → Range.bipolar.contains x.sin = true)
    (haudible : ∀ filling ∈ (fresh files).fillings id tasks,
      Block.Audible (filling.frequencies frequency)) :
    Waveform.InPeriod node.phase ∧ ∀ filling ∈ (fresh files).fillings id tasks,
      (filling.frequencies frequency).size = filling.request.frames ∧
      waveform.run filling.before.phase (filling.frequencies frequency)
        = { samples := filling.block, phase := filling.after.phase } ∧
      (∀ count, Waveform.InPeriod (waveform.run filling.before.phase
        ((filling.frequencies frequency).extract 0 count)).phase) ∧
      ∀ sample ∈ filling.block, Range.bipolar.contains sample = true ∧
        (waveform = .square → sample = 1 ∨ sample = -1) := by
  have hstart := reached_fresh files
  have hdevices : ∀ filling ∈ (fresh files).fillings id tasks, filling.Genuine id ∧
      filling.before.device = .oscillator waveform frequency := by
    intro filling hmem
    rw [← hdevice]
    exact device_of_mem_fillings hstart hallowed hmem hnode
  have htuned : ∀ filling ∈ (fresh files).fillings id tasks, filling.Tuned := by
    intro filling hmem found other hfound
    rw [(hdevices filling hmem).2] at hfound
    cases hfound
    exact haudible filling hmem
  obtain ⟨hlast, hphases⟩ :=
    inPeriod_performAll hstart hallowed (Rack.InPeriod.empty files id) htuned
  refine ⟨hlast node hnode, ?_⟩
  intro filling hmem
  obtain ⟨hgenuine, hoscillator⟩ := hdevices filling hmem
  obtain ⟨hsize, hrun⟩ := hgenuine.run_eq hoscillator
  have hphase := hphases filling hmem
  refine ⟨hsize, hrun, ?_, ?_⟩
  · intro count
    exact Waveform.inPeriod_run waveform hphase ((haudible filling hmem).extract 0 count)
  · intro sample hsample
    have hrunMem : sample ∈
        (waveform.run filling.before.phase (filling.frequencies frequency)).samples := by
      rw [hrun]
      exact hsample
    obtain ⟨place, hplace, rfl⟩ := Waveform.exists_of_mem_run hphase (haudible filling hmem) hrunMem
    refine ⟨Waveform.contains_sample hsine hplace, ?_⟩
    rintro rfl
    exact Waveform.sample_square place

def squareText : String :=
  "Square s(11025)"

def squared : Studio :=
  perform (fresh {}) (.parse squareText)

theorem built_squared : squared.patch.Built :=
  (Patch.Built.empty {}).parse squareText

theorem source_squared :
    squared.patch.rack.shape[0]? = some (.constant 11025, Range.point 11025) := by
  rw [Rack.getElem?_shape]
  rfl

theorem square_squared :
    squared.patch.rack.shape[1]? = some (.oscillator .square 0, Range.bipolar) := by
  rw [Rack.getElem?_shape]
  rfl

def onePeriod : Request :=
  { timestamp := 0, frames := 4, controls := {} }

def quarterFeed (input : Nat) : Feed :=
  { range := squared.patch.rack.rangeOf input, block := Array.replicate 4 11025 }

theorem output_source_squared :
    (squared.patch.rack.output onePeriod 0).1 = .ok (Array.replicate 4 11025) := by
  obtain ⟨source, hsource, hdevice, hrange⟩ := Rack.exists_of_getElem?_shape source_squared
  have hcontains : (Range.point 11025).contains 11025 = true := by decide +kernel
  have hidle := built_squared.unrecorded 0 source hsource
  refine (Rack.output_of_steady built_squared.reachable.wellFormed onePeriod hsource
    (built_squared.unplayed.isStale hsource 0) ?_ (hrange ▸ hcontains)
    (Node.room_of_idle hidle _)).1
  rw [hdevice]
  rfl

theorem output_squared : (squared.patch.rack.output onePeriod 1).1 = .ok #[1, 1, -1, -1] := by
  obtain ⟨node, hnode, hdevice, hrange⟩ := Rack.exists_of_getElem?_shape square_squared
  have hrack := built_squared.reachable.wellFormed
  have hidle := built_squared.unrecorded 1 node hnode
  have hphase : node.phase = 0 :=
    ((hrack.sound hnode).unplayed (built_squared.unplayed 1 node hnode).1).1
  have hfeeds : squared.patch.rack.Feeds onePeriod node.device quarterFeed := by
    refine ⟨fun _ _ => rfl, ?_⟩
    rw [hdevice]
    intro input hmem
    obtain rfl : input = 0 := by simpa [Device.reads, Device.inputs] using hmem
    exact output_source_squared
  have hresult : (node.device.map quarterFeed).fill onePeriod.clamped node.phase
      = .ok (Waveform.square.run 0 (Array.replicate 4 11025)) := by
    have hwhole : (quarterFeed 0).block.extract 0 4 = Array.replicate 4 11025 := by
      decide +kernel
    rw [hdevice, hphase, ← hwhole]
    rfl
  have hrun : (Waveform.square.run 0 (Array.replicate 4 11025)).samples = #[1, 1, -1, -1] := by
    decide +kernel
  generalize Waveform.square.run 0 (Array.replicate 4 11025) = result at hresult hrun
  have hcontains : ∀ sample ∈ [1, 1, -1, -1], Range.bipolar.contains sample = true := by
    decide +kernel
  rw [← hrun]
  apply hrack.output_of_feed hnode (built_squared.unplayed.isStale hnode 0) (by rw [hdevice]; rfl)
    (Node.room_of_idle hidle _) hfeeds hresult
  · rw [hrun, hdevice]
    rfl
  · intro sample hmem
    rw [hrun] at hmem
    have hsample := hcontains sample (Array.mem_toList_iff.2 hmem)
    rw [← hrange] at hsample
    exact hsample

def squarePull : List Task :=
  [.parse squareText, .output 1 0 4]

theorem allowsAll_squarePull : (fresh {}).AllowsAll squarePull :=
  ⟨trivial, trivial, trivial⟩

theorem exists_filling_squarePull :
    ∃ filling, (fresh {}).fillings 1 squarePull = [filling] ∧ filling.Genuine 1 ∧
      filling.frequencies 0 = Array.replicate 4 11025 := by
  have hrack := built_squared.reachable.wellFormed
  obtain ⟨node, hnode, hdevice, -⟩ := Rack.exists_of_getElem?_shape square_squared
  obtain ⟨filling, hfilling, hgenuine, hrequest, hafter, -⟩ :=
    Rack.exists_fillingOf hrack hnode (built_squared.unplayed.isStale hnode onePeriod.timestamp)
      (Rack.refresh_of_output output_squared)
  have hshape : filling.rack.shape = squared.patch.rack.shape := by
    rw [hafter, Rack.shape_output]
  obtain ⟨source, hsource, hconstant, -⟩ :=
    Rack.exists_of_getElem?_shape (hshape ▸ source_squared)
  have hfrequencies := hgenuine.frequencies_of_constant hsource hconstant
  rw [hrequest] at hfrequencies
  refine ⟨filling, ?_, hgenuine, hfrequencies⟩
  rw [squarePull, fillings_parse_output, ← squared]
  exact congrArg Option.toList hfilling

theorem inPeriod_of_session_squarePull :
    ∃ node filling, (fresh {}).AllowsAll squarePull ∧
      ((fresh {}).performAll squarePull).patch.rack.nodes[1]? = some node ∧
      node.device = .oscillator .square 0 ∧
      (fresh {}).fillings 1 squarePull = [filling] ∧
      filling.frequencies 0 = Array.replicate 4 11025 ∧
      Block.Audible (filling.frequencies 0) ∧ Waveform.InPeriod node.phase ∧
      (∀ count, Waveform.InPeriod (Waveform.square.run filling.before.phase
        ((filling.frequencies 0).extract 0 count)).phase) ∧
      ∀ sample ∈ filling.block, sample = 1 ∨ sample = -1 := by
  obtain ⟨filling, hfillings, -, hfrequencies⟩ := exists_filling_squarePull
  have haudible : Block.Audible (filling.frequencies 0) := by
    have hcontains : Device.frequencyRange.contains 11025 = true := by decide +kernel
    rw [hfrequencies]
    intro hz hmem
    rw [(Array.mem_replicate.1 hmem).2]
    exact hcontains
  obtain ⟨first, hfirst, hdevice, -⟩ := Rack.exists_of_getElem?_shape square_squared
  have hlater : squared.patch.rack.Later (squared.patch.rack.output onePeriod 1).2 :=
    Rack.Later.refl.output onePeriod 1
  have hrack : ((fresh {}).performAll squarePull).patch.rack
      = (squared.patch.rack.output onePeriod 1).2 := by
    rw [squarePull, performAll, List.foldl_cons, List.foldl_cons, List.foldl_nil, ← squared,
      rack_perform_output]
    rfl
  rw [← hrack] at hlater
  obtain ⟨node, hnode, hsame⟩ := hlater.device_eq hfirst
  rw [hdevice] at hsame
  have hall : ∀ found ∈ (fresh {}).fillings 1 squarePull, Block.Audible (found.frequencies 0) := by
    intro found hmem
    rw [hfillings, List.mem_singleton] at hmem
    rw [hmem]
    exact haudible
  obtain ⟨hphase, hfilled⟩ :=
    inPeriod_of_session allowsAll_squarePull hnode hsame (fun hsine => by cases hsine) hall
  obtain ⟨-, -, hphases, hsamples⟩ := hfilled filling (by simp [hfillings])
  refine ⟨node, filling, allowsAll_squarePull, hnode, hsame, hfillings, hfrequencies, haudible,
    hphase, hphases, ?_⟩
  intro sample hmem
  exact (hsamples sample hmem).2 rfl

end Studio
end PatchSynth
