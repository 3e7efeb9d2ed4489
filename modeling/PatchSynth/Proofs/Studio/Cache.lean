import PatchSynth.Proofs.Studio.History

/-!
This module contains where the samples of a block come from that is handed out. They stand in the
buffer of the node since its last fill, as far as this fill was asked to go. Behind that stands what
the buffer held before, because a block is cached for a timestamp and not for its length.
-/

namespace PatchSynth

theorem Node.getElem?_block (node : Node) {frames i : Nat}
    (h : i < frames * node.device.channels) : (node.block frames)[i]? = node.buffer[i]? := by
  rw [Node.block, Array.getElem?_extract]
  split
  next => rw [Nat.zero_add]
  next hge => rw [Array.getElem?_eq_none_iff.2 (by omega)]

namespace Filling

variable {filling : Filling} {id : Nat}

def computed (filling : Filling) : Except Error Block :=
  ((filling.before.device.map (filling.rack.feed filling.request.frames)).fill filling.request
    filling.before.phase).map (·.samples)

theorem Genuine.computed_eq (h : filling.Genuine id) (hwired : filling.rack.Wired)
    (hconstant : ∀ value, filling.before.device ≠ .constant value) :
    filling.computed = .ok filling.block := by
  have hcomplete := h.filledAs.complete h.frames_le h.wellFormed hwired.wellTyped h.node_eq
  unfold Rack.Complete at hcomplete
  split at hcomplete
  next value hvalue => exact absurd hvalue (hconstant value)
  next => exact hcomplete

theorem Genuine.buffer_eq (h : filling.Genuine id)
    (hcomputed : filling.computed = .ok filling.block) :
    filling.after.buffer
      = filling.block
        ++ filling.before.buffer.extract filling.block.size filling.before.buffer.size := by
  obtain ⟨result, fills, hfill, hafter⟩ := h.filledAs.fill
  have hsamples : result.samples = filling.block := by
    rw [computed, hfill] at hcomputed
    exact Except.ok.inj hcomputed
  rw [← hsamples, hafter]
  simp [Rack.Step.filled, Node.store]

end Filling

namespace Rack

structure Stamped (rack : Rack) (id : Nat) (fillings : List Filling) : Prop where
  last_eq : ∀ {node : Node}, rack.nodes[id]? = some node →
    node.last = fillings.getLast?.map (·.request.timestamp)
  buffer_eq : ∀ {node : Node} {filling : Filling}, rack.nodes[id]? = some node →
    fillings.getLast? = some filling →
      node.device = filling.after.device ∧ node.buffer = filling.after.buffer
  eq_nil : rack.nodes[id]? = none → fillings = []

variable {rack next : Rack} {id : Nat} {fillings : List Filling}

namespace Stamped

theorem empty (files : Files) (id : Nat) : Stamped { files } id [] := by
  refine ⟨?_, ?_, fun _ => rfl⟩
  · intro node hnode
    simp at hnode
  · intro node filling hnode
    simp at hnode

theorem of_kept (h : rack.Stamped id fillings)
    (hkept : ∀ now, next.nodes[id]? = some now → ∃ old, rack.nodes[id]? = some old ∧
      now.device = old.device ∧ now.last = old.last ∧ now.buffer = old.buffer)
    (hnone : next.nodes[id]? = none → rack.nodes[id]? = none) : next.Stamped id fillings := by
  refine ⟨?_, ?_, fun hnext => h.eq_nil (hnone hnext)⟩
  · intro node hnode
    obtain ⟨old, hold, -, hlast, -⟩ := hkept node hnode
    rw [hlast]
    exact h.last_eq hold
  · intro node filling hnode hfilling
    obtain ⟨old, hold, hdevice, -, hbuffer⟩ := hkept node hnode
    rw [hdevice, hbuffer]
    exact h.buffer_eq hold hfilling

theorem add (h : rack.Stamped id fillings) (device : Device Nat) :
    (rack.add device).2.Stamped id fillings := by
  by_cases hlt : id < rack.nodes.size
  · have hsame := getElem?_add_of_lt rack device hlt
    apply h.of_kept
    · intro now hnow
      exact ⟨now, hsame ▸ hnow, rfl, rfl, rfl⟩
    · intro hnone
      exact hsame ▸ hnone
  · -- The node is new, if it is there at all, and has no block yet.
    have hnil : fillings = [] := h.eq_nil (by rw [Array.getElem?_eq_none_iff]; omega)
    subst hnil
    refine ⟨?_, ?_, fun _ => rfl⟩
    · intro node hnode
      obtain ⟨hold, -⟩ | ⟨-, rfl⟩ := nodes_add_cases hnode
      · exact absurd hold hlt
      · rfl
    · intro node filling _ hfilling
      cases hfilling

theorem update_recorder (h : rack.Stamped id fillings) (other : Nat) (recorder : Option Recorder)
    (files : Files) :
    Stamped { rack.update other fun node => { node with recorder := recorder } with files } id
      fillings := by
  have hupdate := getElem?_update rack other id fun node => { node with recorder := recorder }
  apply h.of_kept
  · intro now hnow
    have hnow' : (rack.update other fun node =>
        { node with recorder := recorder }).nodes[id]? = some now := hnow
    obtain ⟨old, hold, rfl | ⟨-, rfl⟩⟩ := nodes_update_cases hnow'
    · exact ⟨now, hold, rfl, rfl, rfl⟩
    · exact ⟨old, hold, rfl, rfl, rfl⟩
  · intro hnone
    have hnone' : (rack.update other fun node =>
        { node with recorder := recorder }).nodes[id]? = none := hnone
    rw [hupdate] at hnone'
    split at hnone'
    · exact Option.map_eq_none_iff.1 hnone'
    · exact hnone'

theorem record (h : rack.Stamped id fillings) (other : Nat) (path : String) (scaler : Float32) :
    (rack.record other path scaler).2.Stamped id fillings := by
  obtain heq | ⟨_, recorder, files, -, -, heq⟩ := rack.snd_record_cases other path scaler
  · rw [heq]
    exact h
  · rw [heq]
    exact h.update_recorder other (some recorder) files

theorem stop (h : rack.Stamped id fillings) (other : Nat) :
    (rack.stop other).2.Stamped id fillings := by
  obtain heq | ⟨files, heq⟩ := rack.snd_stop_cases other
  · rw [heq]
    exact h
  · rw [heq]
    exact h.update_recorder other none files

theorem output (h : rack.Stamped id fillings) (hrack : rack.WellFormed) (request : Request)
    (root : Nat) :
    (rack.output request root).2.Stamped id
      (fillings ++ (rack.fillingOf request root id).toList) := by
  have hshape := rack.shape_output request root
  have hnone : (rack.output request root).2.nodes[id]? = none → rack.nodes[id]? = none :=
    fun hnext => none_of_shape hshape hnext
  obtain ⟨hfilling, hkept⟩ | ⟨filling, hfilling, hgenuine, -, heq, hbefore⟩ :=
    fillingOf_cases hrack request root id
  · rw [hfilling, Option.toList_none, List.append_nil]
    refine h.of_kept ?_ hnone
    intro now hnow
    obtain ⟨old, hold, -, -⟩ := exists_of_shape hshape hnow
    obtain ⟨fills, hnext⟩ := hkept old hold
    rw [hnow] at hnext
    cases hnext
    exact ⟨old, hold, rfl, rfl, rfl⟩
  · have hafter := hgenuine.node_eq
    rw [heq] at hafter
    rw [hfilling, Option.toList_some]
    refine ⟨?_, ?_, ?_⟩
    · intro node hnode
      rw [hafter] at hnode
      cases hnode
      rw [List.getLast?_concat]
      exact hgenuine.last_eq
    · intro node last hnode hlast
      rw [hafter] at hnode
      cases hnode
      rw [List.getLast?_concat] at hlast
      cases hlast
      exact ⟨rfl, rfl⟩
    · intro hnext
      rw [hnone hnext] at hbefore
      cases hbefore

theorem outputs (h : rack.Stamped id fillings) (hrack : rack.WellFormed)
    (pulls : List (Request × Nat)) :
    (rack.outputs pulls).Stamped id (fillings ++ rack.fillings id pulls) := by
  induction pulls generalizing rack fillings with
  | nil =>
    rw [Rack.fillings, List.append_nil]
    exact h
  | cons pull rest ih =>
    have hfirst := h.output hrack pull.1 pull.2
    rw [Rack.fillings, ← List.append_assoc]
    exact ih hfirst (hrack.output pull.1 pull.2)

end Stamped

theorem Stamped.getElem?_block (h : rack.Stamped id fillings) {node : Node}
    (hnode : rack.nodes[id]? = some node) {filling : Filling}
    (hlast : fillings.getLast? = some filling) (hgenuine : filling.Genuine id)
    (hcomputed : filling.computed = .ok filling.block) {frames i : Nat}
    (hi : i < frames * node.device.channels) :
    (node.block frames)[i]?
      = if i < filling.block.size then filling.block[i]? else filling.before.buffer[i]? := by
  obtain ⟨-, hbuffer⟩ := h.buffer_eq hnode hlast
  rw [Node.getElem?_block node hi, hbuffer, hgenuine.buffer_eq hcomputed]
  split
  next hlt => rw [Array.getElem?_append_left hlt]
  next hge =>
    rw [Array.getElem?_append_right (by omega), Array.getElem?_extract,
      Nat.add_sub_cancel' (by omega)]
    split
    next => rfl
    next hout => rw [Array.getElem?_eq_none_iff.2 (by omega)]

end Rack

namespace Studio

variable {studio : Studio} {id : Nat} {earlier : List Filling}

theorem stamped_perform (h : studio.Reached) {task : Task} (hallowed : studio.Allows task)
    (hstamped : studio.patch.rack.Stamped id earlier) :
    (studio.perform task).patch.rack.Stamped id
      (earlier ++ studio.patch.rack.fillings id (studio.pulls task)) := by
  obtain heq | ⟨hpulls, other, path, scaler, hasks⟩ | ⟨hpulls, hquiet⟩ := perform_cases h hallowed
  · rw [heq]
    exact hstamped.outputs h.reachable.wellFormed _
  · rw [hasks.rack_perform, hpulls, Rack.fillings, List.append_nil]
    exact hstamped.record other path scaler
  · rw [hpulls, Rack.fillings, List.append_nil]
    generalize (studio.perform task).patch.rack = next at hquiet ⊢
    induction hquiet with
    | refl => exact hstamped
    | add _ _ _ ih => exact ih.add _
    | stop _ other ih => exact ih.stop other

theorem stamped_performAll (h : studio.Reached) {tasks : List Task}
    (hallowed : studio.AllowsAll tasks) (hstamped : studio.patch.rack.Stamped id earlier) :
    (studio.performAll tasks).patch.rack.Stamped id (earlier ++ studio.fillings id tasks) := by
  induction tasks generalizing studio earlier with
  | nil =>
    rw [fillings, List.append_nil]
    exact hstamped
  | cons task rest ih =>
    rw [fillings, ← List.append_assoc]
    exact ih (h.perform task hallowed.1) hallowed.2 (stamped_perform h hallowed.1 hstamped)

theorem genuine_of_mem_fillings (h : studio.Reached) {tasks : List Task}
    (hallowed : studio.AllowsAll tasks) (hparsed : ∀ device, .build device ∉ tasks)
    (hwired : studio.patch.rack.Wired) {filling : Filling}
    (hmem : filling ∈ studio.fillings id tasks) :
    filling.Genuine id ∧ filling.rack.Wired := by
  induction tasks generalizing studio with
  | nil => cases hmem
  | cons task rest ih =>
    rw [fillings, List.mem_append] at hmem
    obtain hmem | hmem := hmem
    · obtain ⟨hgenuine, hshape, -⟩ := Rack.genuine_of_mem_fillings h.reachable.wellFormed hmem
      exact ⟨hgenuine, hwired.of_shape hshape⟩
    · have htask : ∀ device, task ≠ .build device := by
        rintro device rfl
        exact hparsed device List.mem_cons_self
      have hrest : ∀ device, .build device ∉ rest := fun device hbuild =>
        hparsed device (List.mem_cons_of_mem _ hbuild)
      exact ih (h.perform task hallowed.1) hallowed.2 hrest
        (wired_perform h hallowed.1 htask hwired) hmem

theorem of_output_eq_ok {timestamp frames : Nat} {block : Block} {next : Studio}
    (h : studio.output id timestamp frames = (.ok block, next)) :
    ∃ now last, next.patch.rack.nodes[id]? = some now ∧ now.last = some last ∧
      block = now.block (min frames maxFrames) := by
  have heq := studio.output_eq id timestamp frames rfl
  rw [h] at heq
  obtain ⟨hresult, rfl⟩ := Prod.mk.inj heq
  cases hrefresh : (studio.patch.rack.refresh
      { timestamp, frames := min frames maxFrames, controls := studio.controls } id).1 with
  | error e =>
    rw [hrefresh] at hresult
    cases hresult
  | ok _ =>
    rw [hrefresh] at hresult
    obtain ⟨now, hnow, hfresh⟩ := (Rack.steps_refresh _ id studio.patch.rack).2 hrefresh
    obtain ⟨last, hlast, -⟩ := Node.isStale_eq_false_iff.1 hfresh
    refine ⟨now, last, hnow, hlast, ?_⟩
    rw [Except.ok.inj hresult, Rack.blockOf, hnow]

/--
A block that is handed out shows the buffer of the node since its last fill. As many samples as this
fill was asked for are the ones that it computed. A call that asks for more, at the timestamp of the
fill or an older one, gets behind them what the buffer held before.
-/
theorem samples_of_output {files : Files} {tasks : List Task} {studio next : Studio}
    {id timestamp frames : Nat} {node : Node} {block : Block}
    (hallowed : (fresh files).AllowsAll tasks) (hparsed : ∀ device, .build device ∉ tasks)
    (hstudio : (fresh files).performAll tasks = studio)
    (hnode : studio.patch.rack.nodes[id]? = some node)
    (hconstant : ∀ value, node.device ≠ .constant value)
    (houtput : studio.output id timestamp frames = (.ok block, next)) :
    ∃ filling,
      ((fresh files).fillings id (tasks ++ [.output id timestamp frames])).getLast?
        = some filling ∧
      (∃ now, next.patch.rack.nodes[id]? = some now ∧
        now.last = some filling.request.timestamp) ∧
      filling.computed = .ok filling.block ∧
      filling.block.size = filling.request.frames * node.device.channels ∧
      block.size = min frames maxFrames * node.device.channels ∧
      (∀ i < block.size, i < filling.block.size → block[i]? = filling.block[i]?) ∧
      ∀ i < block.size, filling.block.size ≤ i → block[i]? = filling.before.buffer[i]? := by
  have hstart := reached_fresh files
  have hperform : studio.perform (.output id timestamp frames) = next :=
    congrArg Prod.snd houtput
  have hall : (fresh files).AllowsAll (tasks ++ [.output id timestamp frames]) :=
    (allowsAll_append ..).2 ⟨hallowed, trivial, trivial⟩
  have hnext : (fresh files).performAll (tasks ++ [.output id timestamp frames]) = next := by
    rw [performAll_append, hstudio]
    exact hperform
  have hbefore : studio.Reached := hstudio ▸ hstart.performAll hallowed
  have hreached : next.Reached := hnext ▸ hstart.performAll hall
  have hstamped := stamped_performAll hstart hall (Rack.Stamped.empty files id)
  rw [hnext, List.nil_append] at hstamped
  obtain ⟨now, last, hnow, hlast, hblock⟩ := of_output_eq_ok houtput
  -- The node has a block, so that there is a last fill.
  have hlast' := hstamped.last_eq hnow
  rw [hlast, eq_comm, Option.map_eq_some_iff] at hlast'
  obtain ⟨filling, hfilling, rfl⟩ := hlast'
  have hnone : ∀ device, .build device ∉ tasks ++ [.output id timestamp frames] := by
    intro device hmem
    rw [List.mem_append, List.mem_singleton] at hmem
    obtain hmem | hmem := hmem
    · exact hparsed device hmem
    · cases hmem
  obtain ⟨hgenuine, hwired⟩ := genuine_of_mem_fillings hstart hall hnone (Rack.Wired.empty files)
    (List.mem_of_getLast? hfilling)
  obtain ⟨hdevice, hbuffer⟩ := hstamped.buffer_eq hnow hfilling
  have hsame : now.device = node.device := by
    have honward : studio.patch.Onward (studio.perform (.output id timestamp frames)).patch :=
      hbefore.onward trivial
    obtain ⟨found, hfound, hdevice⟩ := honward.later.device_eq hnode
    rw [hperform, hnow] at hfound
    cases hfound
    exact hdevice
  have hfilled : filling.before.device = node.device := by
    rw [← hgenuine.device_eq, ← hdevice, hsame]
  have hcomputed := hgenuine.computed_eq hwired (hfilled ▸ hconstant)
  have hfillingSize := hgenuine.size_block
  rw [hfilled] at hfillingSize
  have hsize : block.size = min frames maxFrames * node.device.channels := by
    rw [hblock, Node.size_block (hreached.reachable.wellFormed.sound hnow) (Nat.min_le_right _ _),
      hsame]
  refine ⟨filling, hfilling, ⟨now, hnow, hlast⟩, hcomputed, hfillingSize, hsize, ?_, ?_⟩
  · intro i hi hlt
    rw [hsize, ← hsame] at hi
    rw [hblock, hstamped.getElem?_block hnow hfilling hgenuine hcomputed hi, if_pos hlt]
  · intro i hi hge
    rw [hsize, ← hsame] at hi
    rw [hblock, hstamped.getElem?_block hnow hfilling hgenuine hcomputed hi, if_neg (by omega)]

theorem output_of_fresh {node : Node} {timestamp : Nat}
    (hnode : studio.patch.rack.nodes[id]? = some node) (hfresh : node.isStale timestamp = false)
    (frames : Nat) :
    studio.output id timestamp frames = (.ok (node.block (min frames maxFrames)), studio) := by
  have hrack : studio.patch.rack.output { timestamp, frames, controls := studio.controls } id
      = (.ok (node.block (min frames maxFrames)), studio.patch.rack) :=
    Rack.output_of_fresh hnode hfresh
  simp only [output, hrack]

theorem fillings_output_of_fresh {node : Node} {timestamp : Nat}
    (hnode : studio.patch.rack.nodes[id]? = some node) (hfresh : node.isStale timestamp = false)
    (frames : Nat) : studio.fillings id [.output id timestamp frames] = [] := by
  have hrack : studio.patch.rack.output { timestamp, frames, controls := studio.controls } id
      = (.ok (node.block (min frames maxFrames)), studio.patch.rack) :=
    Rack.output_of_fresh hnode hfresh
  have hnone : studio.patch.rack.fillingOf { timestamp, frames, controls := studio.controls } id id
      = none := by
    simp only [Rack.fillingOf, hrack, hnode, if_true]
  rw [fillings, fillings, pulls, Rack.fillings, Rack.fillings, hnone]
  rfl

def rescaledText : String :=
  "Constant c(1)\nRescaler r(c, 200, 400)"

def rescaled : Studio :=
  perform (fresh {}) (.parse rescaledText)

theorem built_rescaled : rescaled.patch.Built :=
  (Patch.Built.empty {}).parse rescaledText

theorem source_rescaled :
    rescaled.patch.rack.shape[0]? = some (.constant 1, Range.point 1) := by
  rw [Rack.getElem?_shape]
  rfl

theorem rescaler_rescaled :
    rescaled.patch.rack.shape[1]? = some (.rescaler 0 200 400, Range.between 200 400) := by
  rw [Rack.getElem?_shape]
  rfl

theorem size_rescaled : rescaled.patch.rack.nodes.size = 2 := rfl

theorem clean_rescaled (frames id : Nat) : rescaled.patch.rack.Clean {} 0 frames id := by
  obtain ⟨source, hsource, hsourceDevice, hsourceRange⟩ :=
    Rack.exists_of_getElem?_shape source_rescaled
  obtain ⟨rescaler, hrescaler, hdevice, hrange⟩ := Rack.exists_of_getElem?_shape rescaler_rescaled
  have hrack := built_rescaled.reachable.wellFormed
  have hsignal : rescaled.patch.rack.signal {} 0 = fun _ => 1 := by
    rw [Rack.signal_eq {} hrack hsource, hsourceDevice]
    rfl
  obtain _ | _ | id := id
  · have hcontains : (Range.point 1).contains 1 = true := by decide
    apply Rack.Clean.of_contains hsource
    · rw [hsourceDevice]
      rfl
    · rw [hsourceDevice]
      rfl
    · intro time
      rw [hsourceRange, hsignal]
      exact hcontains
  · have hcontains : (Range.between 200 400).contains
        (Device.rescaleSample 200 400 (Range.point 1) 1) = true := by decide
    apply Rack.Clean.of_contains hrescaler
    · rw [hdevice]
      rfl
    · rw [hdevice]
      decide
    · intro time
      have hsourceRange' : rescaled.patch.rack.rangeOf 0 = Range.point 1 := by
        rw [Rack.rangeOf, hsource]
        exact hsourceRange
      rw [hrange, Rack.signal_eq {} hrack hrescaler, hdevice]
      simp only [Device.map, Device.signal, Rack.tone, hsignal, hsourceRange']
      exact hcontains
  · apply Rack.Clean.of_none
    rw [Array.getElem?_eq_none_iff, size_rescaled]
    omega

def shortPull : List Task :=
  [.parse rescaledText, .output 1 0 1]

theorem allowsAll_shortPull : (fresh {}).AllowsAll shortPull :=
  ⟨trivial, trivial, trivial⟩

theorem parsed_shortPull (device : Device Nat) : .build device ∉ shortPull := by
  simp [shortPull]

def oneFrame : Request :=
  { timestamp := 0, frames := 1, controls := {} }

theorem refresh_rescaled : (rescaled.patch.rack.refresh oneFrame 1).1 = .ok () := by
  have hplayed : rescaled.patch.rack.PlayedTo oneFrame.controls 1 0 oneFrame.timestamp :=
    Rack.PlayedTo.of_unplayed built_rescaled.reachable.wellFormed built_rescaled.wellTyped
      built_rescaled.unplayed _ _
  rw [hplayed.refresh_ok_iff (by decide) (built_rescaled.hasRoom _)
    (by rw [size_rescaled]; decide)]
  intro id _
  exact clean_rescaled _ id

theorem controls_rescaled : rescaled.controls = {} := rfl

theorem rack_shortPull : ((fresh {}).performAll shortPull).patch.rack
    = (rescaled.patch.rack.output oneFrame 1).2 := by
  rw [shortPull, performAll, List.foldl_cons, List.foldl_cons, List.foldl_nil, ← rescaled,
    rack_perform_output, controls_rescaled, oneFrame]

theorem fillings_shortPull :
    (fresh {}).fillings 1 shortPull = (rescaled.patch.rack.fillingOf oneFrame 1 1).toList := by
  rw [shortPull, fillings_parse_output, ← rescaled, controls_rescaled, oneFrame]

theorem exists_filling_shortPull :
    ∃ node filling, ((fresh {}).performAll shortPull).patch.rack.nodes[1]? = some node ∧
      node.isStale 0 = false ∧ node.device = .rescaler 0 200 400 ∧
      node.range = Range.between 200 400 ∧
      ((fresh {}).fillings 1 shortPull).getLast? = some filling ∧ filling.Genuine 1 ∧
      filling.computed = .ok filling.block ∧ filling.block.size = 1 ∧
      filling.before.buffer = Array.replicate 4000 0 := by
  have hrack := built_rescaled.reachable.wellFormed
  obtain ⟨before, hbefore, hdevice, hrange⟩ := Rack.exists_of_getElem?_shape rescaler_rescaled
  obtain ⟨filling, hfilling, hgenuine, hrequest, hfillingRack, rfl⟩ :=
    Rack.exists_fillingOf hrack hbefore
      (built_rescaled.unplayed.isStale hbefore oneFrame.timestamp) refresh_rescaled
  have hafter := hgenuine.node_eq
  rw [hfillingRack] at hafter
  have hfresh : filling.after.isStale 0 = false := by
    rw [Node.isStale_eq_false_iff]
    exact ⟨_, hgenuine.last_eq, Nat.zero_le _⟩
  obtain ⟨found, hfound, hsame, hsameRange⟩ :=
    Rack.exists_of_shape (rescaled.patch.rack.shape_output oneFrame 1) hafter
  rw [hbefore] at hfound
  cases hfound
  have hconstant : ∀ value, filling.before.device ≠ .constant value := by
    intro value hvalue
    rw [hdevice] at hvalue
    cases hvalue
  have hwired : filling.rack.Wired := by
    have htyped : rescaled.patch.rack.Wired :=
      wired_perform (reached_fresh {}) trivial (by simp) (Rack.Wired.empty {})
    rw [hfillingRack]
    exact htyped.of_shape (Rack.shape_output _ oneFrame 1)
  have hsize := hgenuine.size_block
  have hbuffer := ((hrack.sound hbefore).unplayed (built_rescaled.unplayed 1 _ hbefore).1).2.1
  rw [hrequest, hdevice] at hsize
  rw [hdevice] at hbuffer
  refine ⟨filling.after, filling, by rw [rack_shortPull, hafter], hfresh, hsame.symm.trans hdevice,
    hsameRange.symm.trans hrange, ?_, hgenuine, hgenuine.computed_eq hwired hconstant, hsize,
    hbuffer⟩
  rw [fillings_shortPull, hfilling]
  rfl

theorem zero_of_output_rescaled :
    ∃ studio node filling block,
      (fresh {}).AllowsAll shortPull ∧ (∀ device, .build device ∉ shortPull) ∧
      (fresh {}).performAll shortPull = studio ∧
      studio.patch.rack.nodes[1]? = some node ∧ node.device = .rescaler 0 200 400 ∧
      node.range = Range.between 200 400 ∧
      studio.output 1 0 3 = (.ok block, studio) ∧
      ((fresh {}).fillings 1 (shortPull ++ [.output 1 0 3])).getLast? = some filling ∧
      filling.block.size = 1 ∧ block.size = 3 ∧ block[1]? = some 0 ∧
      node.range.contains 0 = false := by
  obtain ⟨node, filling, hnode, hfresh, hdevice, hrange, hlast, hgenuine, hcomputed, hsize,
    hbuffer⟩ := exists_filling_shortPull
  have hreached := (reached_fresh {}).performAll allowsAll_shortPull
  have hstamped := stamped_performAll (reached_fresh {}) allowsAll_shortPull
    (Rack.Stamped.empty {} 1)
  rw [List.nil_append] at hstamped
  have houtput := output_of_fresh hnode hfresh 3
  have hchannels : node.device.channels = 1 := by
    rw [hdevice]
    rfl
  have hblock : (node.block (min 3 maxFrames)).size = 3 := by
    rw [Node.size_block (hreached.reachable.wellFormed.sound hnode) (Nat.min_le_right _ _),
      hchannels]
    decide
  refine ⟨_, node, filling, _, allowsAll_shortPull, parsed_shortPull, rfl, hnode, hdevice, hrange,
    houtput, ?_, hsize, hblock, ?_, ?_⟩
  · rw [fillings_append, fillings_output_of_fresh hnode hfresh 3, List.append_nil]
    exact hlast
  · have hi : 1 < min 3 maxFrames * node.device.channels := by
      rw [hchannels]
      decide
    rw [hstamped.getElem?_block hnode hlast hgenuine hcomputed hi, hsize, if_neg (by omega),
      hbuffer, Array.getElem?_replicate, if_pos (by omega)]
  · rw [hrange]
    decide

theorem samples_of_output_rescaled :
    ∃ node block next filling,
      (fresh {}).AllowsAll shortPull ∧ (∀ device, .build device ∉ shortPull) ∧
      ((fresh {}).performAll shortPull).patch.rack.nodes[1]? = some node ∧
      (∀ value, node.device ≠ .constant value) ∧
      ((fresh {}).performAll shortPull).output 1 0 3 = (.ok block, next) ∧
      ((fresh {}).fillings 1 (shortPull ++ [.output 1 0 3])).getLast? = some filling ∧
      filling.computed = .ok filling.block ∧
      filling.block.size = filling.request.frames * node.device.channels ∧
      block.size = min 3 maxFrames * node.device.channels ∧
      (∀ i < block.size, i < filling.block.size → block[i]? = filling.block[i]?) ∧
      ∀ i < block.size, filling.block.size ≤ i → block[i]? = filling.before.buffer[i]? := by
  obtain ⟨node, -, hnode, hfresh, hdevice, -⟩ := exists_filling_shortPull
  have hconstant : ∀ value, node.device ≠ .constant value := by
    intro value hvalue
    rw [hdevice] at hvalue
    cases hvalue
  have houtput := output_of_fresh hnode hfresh 3
  obtain ⟨filling, hfilling, -, hsamples⟩ :=
    samples_of_output allowsAll_shortPull parsed_shortPull rfl hnode hconstant houtput
  exact ⟨node, _, _, filling, allowsAll_shortPull, parsed_shortPull, hnode, hconstant, houtput,
    hfilling, hsamples⟩

end Studio
end PatchSynth
