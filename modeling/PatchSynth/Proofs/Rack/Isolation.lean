import PatchSynth.Proofs.Patch.Record
import PatchSynth.Proofs.Rack.Order

/-!
This module contains how far a control axis reaches. Two racks play side by side with controls that
differ in one axis. As long as all calls succeed, the nodes that the axis does not lead to stay the
same in both, and so do the files that only such nodes are recorded to.
-/

namespace PatchSynth

namespace Controls

def AgreeOff (axis : Int) (controls other : Controls) : Prop :=
  ∀ another, another ≠ axis → other.get another = controls.get another

variable {axis : Int} {controls other : Controls}

theorem lookup_filter_ne {axis another : Int} (h : another ≠ axis) (held : List (Int × Float32)) :
    (held.filter (·.1 != axis)).lookup another = held.lookup another := by
  induction held with
  | nil => rfl
  | cons entry rest ih =>
    obtain ⟨first, value⟩ := entry
    by_cases hfirst : first = axis
    · rw [List.filter_cons_of_neg (by simp [hfirst]), ih, List.lookup_cons, hfirst,
        beq_false_of_ne h]
    · rw [List.filter_cons_of_pos (by simp [hfirst]), List.lookup_cons, List.lookup_cons, ih]

theorem get_set (controls : Controls) (axis another : Int) (value : Float32) :
    (controls.set axis value).get another
      = if another = axis then (axisRange axis).clamp value else controls.get another := by
  unfold set get
  split
  next heq => rw [heq, List.lookup_cons_self, Option.getD_some]
  next hne => rw [List.lookup_cons, beq_false_of_ne hne, lookup_filter_ne hne]

theorem AgreeOff.set (h : AgreeOff axis controls other) (another : Int) {value value' : Float32}
    (hvalue : another ≠ axis → value' = value) :
    AgreeOff axis (controls.set another value) (other.set another value') := by
  intro third hthird
  rw [get_set, get_set]
  split
  next heq =>
    subst heq
    rw [hvalue hthird]
  next => exact h third hthird

end Controls

structure Request.AgreeOff (axis : Int) (request other : Request) : Prop where
  timestamp_eq : other.timestamp = request.timestamp
  frames_eq : other.frames = request.frames
  controls : Controls.AgreeOff axis request.controls other.controls

theorem Request.AgreeOff.fill_eq {axis : Int} {request other : Request}
    (h : request.AgreeOff axis other) {device : Device Feed} (hdevice : device ≠ .control axis)
    (phase : Float32) : device.fill other phase = device.fill request phase := by
  cases device with
  | control another =>
    have hne : another ≠ axis := by
      rintro rfl
      exact hdevice rfl
    simp only [Device.fill, h.frames_eq, h.controls another hne]
  | _ => simp only [Device.fill, h.timestamp_eq, h.frames_eq]

structure Node.Level (node twin : Node) : Prop where
  device_eq : twin.device = node.device
  range_eq : twin.range = node.range
  last_eq : twin.last = node.last
  file_eq : twin.recorder.map (·.file) = node.recorder.map (·.file)

theorem Node.Level.refl (node : Node) : node.Level node :=
  ⟨rfl, rfl, rfl, rfl⟩

theorem Recorder.lookup_finish_congr {files other : Files} {way : Way}
    (h : files.contents.lookup way = other.contents.lookup way) (recorder : Recorder) :
    (recorder.finish files).2.contents.lookup way
      = (recorder.finish other).2.contents.lookup way :=
  Files.lookup_overwrite_congr (Files.lookup_overwrite_congr h ..) ..

namespace Rack

/--
Whether no input of an axis is among a node and the nodes that it reads, directly or through others.
-/
def Free (axis : Int) (rack : Rack) (id : Nat) : Prop :=
  ∀ (other : Nat) (node : Node), rack.Reaches id other → rack.nodes[other]? = some node →
    node.device ≠ .control axis

/--
Whether two racks differ at most in the nodes outside of a set and in the files that are not spared,
which are all files that a node outside of the set is recorded to.
-/
structure Level (free : Nat → Prop) (spared : Way → Prop) (rack other : Rack) : Prop where
  absent : ∀ {id : Nat}, rack.nodes[id]? = none → other.nodes[id]? = none
  node : ∀ {id : Nat} {node : Node}, rack.nodes[id]? = some node →
    ∃ twin, other.nodes[id]? = some twin ∧ node.Level twin ∧ (free id → twin = node)
  lookup_eq : ∀ way, spared way →
    other.files.contents.lookup way = rack.files.contents.lookup way
  free_of_fileOf : ∀ {id : Nat} {way : Way}, spared way → rack.fileOf id = some way → free id

structure Deaf (axis : Int) (free : Nat → Prop) (rack : Rack) : Prop where
  reads : ∀ {id input : Nat}, free id → rack.Reads id input → free input
  device_ne : ∀ {id : Nat} {node : Node}, free id → rack.nodes[id]? = some node →
    node.device ≠ .control axis

variable {axis : Int} {free : Nat → Prop} {spared : Way → Prop} {rack other next next' : Rack}
  {request request' : Request} {id : Nat} {node : Node}

theorem deaf_free (axis : Int) (rack : Rack) : Deaf axis (rack.Free axis) rack := by
  refine ⟨?_, ?_⟩
  · intro id input hfree hreads third node hreaches
    exact hfree third node (Reaches.head hreads hreaches)
  · intro id node hfree hnode
    exact hfree id node (Reaches.refl rack id) hnode

theorem free_of_shape (hshape : next.shape = rack.shape) :
    next.Free axis id ↔ rack.Free axis id := by
  have hmono : ∀ {rack next : Rack}, next.shape = rack.shape → rack.Free axis id →
      next.Free axis id := by
    intro rack next hshape hfree other node hreaches hnode
    rw [reaches_of_shape hshape] at hreaches
    obtain ⟨twin, htwin, hdevice, -⟩ := exists_of_shape hshape hnode
    rw [← hdevice]
    exact hfree other twin hreaches htwin
  exact ⟨hmono hshape.symm, hmono hshape⟩

theorem Deaf.of_shape (h : Deaf axis free rack) (hshape : next.shape = rack.shape) :
    Deaf axis free next := by
  refine ⟨?_, ?_⟩
  · intro id input hfree hreads
    rw [reads_of_shape hshape] at hreads
    exact h.reads hfree hreads
  · intro id node hfree hnode
    obtain ⟨twin, htwin, hdevice, -⟩ := exists_of_shape hshape hnode
    rw [← hdevice]
    exact h.device_ne hfree htwin

theorem exists_fill_of_complete (h : (complete request id node rack).1 = .ok ()) :
    ∃ result,
      (node.device.map (rack.feed request.frames)).fill request node.phase = .ok result := by
  unfold complete at h
  split at h
  next => cases h
  next result hfill => exact ⟨result, hfill⟩

theorem exists_of_refresh (hnode : rack.nodes[id]? = some node)
    (hstale : node.isStale request.timestamp = true)
    (hok : (rack.refresh request id).1 = .ok ()) :
    ∃ next, forAll (refreshBelow request id) node.device.reads (rack.update id Node.touch)
        = (.ok (), next) ∧
      next.shape = rack.shape ∧ next.nodes[id]? = some node.touch ∧
      (complete request id node next).1 = .ok () ∧
      (rack.refresh request id).2 = (complete request id node next).2 := by
  have hsteps : Steps request (rack.Upstream id) (rack.update id Node.touch)
      (forAll (refreshBelow request id) node.device.reads (rack.update id Node.touch)).2 :=
    (steps_reads hnode (shape_touch rack id)).1
  have hshape := hsteps.shape_eq.trans (shape_touch rack id)
  have hself := hsteps.nodes_touched hnode
  rw [refresh_of_stale hnode hstale] at hok ⊢
  cases hdemands : rack.checkDemands node.device with
  | error e =>
    rw [hdemands] at hok
    cases hok
  | ok _ =>
    rw [hdemands] at hok
    cases hreads : forAll (refreshBelow request id) node.device.reads
        (rack.update id Node.touch) with
    | mk result next =>
      rw [hreads] at hok hshape hself
      cases result with
      | error e => cases hok
      | ok _ => exact ⟨next, rfl, hshape, hself, hok, rfl⟩

theorem stop_of_recorder (hnode : rack.nodes[id]? = some node) {recorder : Recorder}
    (hrecorder : node.recorder = some recorder) :
    (∀ other : Nat, (rack.stop id).2.nodes[other]?
      = if id = other then some { node with recorder := none } else rack.nodes[other]?) ∧
    (rack.stop id).2.files = (recorder.finish rack.files).2 := by
  have hstop : (rack.stop id).2 = { rack.update id fun node => { node with recorder := none } with
      files := (recorder.finish rack.files).2 } := by
    simp only [Rack.stop, hnode, Option.bind_some, hrecorder]
  rw [hstop]
  refine ⟨?_, rfl⟩
  intro other
  show (rack.update id _).nodes[other]? = _
  rw [getElem?_update]
  split
  next heq =>
    rw [← heq, hnode]
    rfl
  next => rfl

theorem lookup_recordBlock_of_ne (hnode : rack.nodes[id]? = some node) {way : Way}
    (hne : node.recorder.map (·.file) ≠ some way) {frames : Nat} :
    (rack.recordBlock id frames).2.files.contents.lookup way = rack.files.contents.lookup way := by
  rw [files_recordBlock hnode]
  cases hrecorder : node.recorder with
  | none => rfl
  | some recorder =>
    apply Recorder.lookup_writeBlock_of_ne
    rintro rfl
    rw [hrecorder] at hne
    exact hne rfl

namespace Level

theorem refl (h : ∀ {id : Nat} {way : Way}, spared way → rack.fileOf id = some way → free id) :
    Level free spared rack rack :=
  ⟨id, fun hnode => ⟨_, hnode, Node.Level.refl _, fun _ => rfl⟩, fun _ _ => rfl, h⟩

theorem shape_eq (h : Level free spared rack other) : other.shape = rack.shape := by
  apply shape_ext
  intro id
  cases hnode : rack.nodes[id]? with
  | none => rw [h.absent hnode]
  | some node =>
    obtain ⟨twin, htwin, hlevel, -⟩ := h.node hnode
    rw [htwin, Option.map_some, Option.map_some, hlevel.device_eq, hlevel.range_eq]

theorem replace (h : Level free spared rack other) {twin : Node}
    (hnode : ∀ third : Nat,
      next.nodes[third]? = if id = third then some node else rack.nodes[third]?)
    (htwin : ∀ third : Nat,
      next'.nodes[third]? = if id = third then some twin else other.nodes[third]?)
    (hlevel : node.Level twin) (hsame : free id → twin = node)
    (hfile : ∀ way, spared way → node.recorder.map (·.file) = some way → free id)
    (hlookup : ∀ way, spared way →
      next'.files.contents.lookup way = next.files.contents.lookup way) :
    Level free spared next next' := by
  refine ⟨?_, ?_, hlookup, ?_⟩
  · intro third hnone
    rw [hnode] at hnone
    rw [htwin]
    split at hnone
    next => cases hnone
    next hne => rw [if_neg hne, h.absent hnone]
  · intro third found hfound
    rw [hnode] at hfound
    rw [htwin]
    split at hfound
    next heq =>
      cases hfound
      subst heq
      exact ⟨twin, if_pos rfl, hlevel, hsame⟩
    next hne =>
      rw [if_neg hne]
      exact h.node hfound
  · intro third way hway hthird
    unfold fileOf at hthird
    rw [hnode] at hthird
    split at hthird
    next heq =>
      subst heq
      exact hfile way hway hthird
    next => exact h.free_of_fileOf hway hthird

theorem touch (h : Level free spared rack other) (hnode : rack.nodes[id]? = some node) :
    Level free spared (rack.update id Node.touch) (other.update id Node.touch) := by
  obtain ⟨twin, htwin, ⟨hdevice, hrange, hlast, hfile⟩, hsame⟩ := h.node hnode
  have hupdate : ∀ {rack : Rack} {node : Node}, rack.nodes[id]? = some node → ∀ third : Nat,
      (rack.update id Node.touch).nodes[third]?
        = if id = third then some node.touch else rack.nodes[third]? := by
    intro rack node hnode third
    rw [getElem?_update]
    split
    next heq =>
      rw [← heq, hnode]
      rfl
    next => rfl
  apply h.replace (hupdate hnode) (hupdate htwin) ⟨hdevice, hrange, hlast, hfile⟩
  · intro hfree
    rw [hsame hfree]
  · intro way hway hrecorder
    apply h.free_of_fileOf hway
    rw [fileOf, hnode]
    exact hrecorder
  · exact h.lookup_eq

theorem fill_eq (h : Level free spared rack other) (hdeaf : Deaf axis free rack)
    (hrequest : request.AgreeOff axis request') (hfree : free id)
    (hnode : rack.nodes[id]? = some node) (phase : Float32) :
    (node.device.map (other.feed request'.frames)).fill request' phase
      = (node.device.map (rack.feed request.frames)).fill request phase := by
  have hne : node.device.map (rack.feed request.frames) ≠ .control axis := by
    have hcontrol := hdeaf.device_ne hfree hnode
    intro heq
    apply hcontrol
    revert heq
    cases node.device <;> simp [Device.map]
  rw [← hrequest.fill_eq hne, hrequest.frames_eq]
  apply Device.fill_map_congr
  · intro input _
    simp only [feed, rangeOf_of_shape h.shape_eq]
  · intro input hmem
    have hinput : free input := hdeaf.reads hfree ⟨node, hnode, hmem⟩
    simp only [feed, blockOf]
    cases hread : rack.nodes[input]? with
    | none => rw [h.absent hread]
    | some read =>
      obtain ⟨twin, htwin, -, hsame⟩ := h.node hread
      rw [htwin, hsame hinput]

theorem lookup_recordBlock (h : ∀ way, spared way →
      other.files.contents.lookup way = rack.files.contents.lookup way) {twin : Node}
    (hnode : rack.nodes[id]? = some node) (htwin : other.nodes[id]? = some twin)
    (hfile : twin.recorder.map (·.file) = node.recorder.map (·.file))
    (hsame : free id → twin = node)
    (hspared : ∀ way, spared way → node.recorder.map (·.file) = some way → free id) (frames : Nat)
    (way : Way) (hway : spared way) :
    (other.recordBlock id frames).2.files.contents.lookup way
      = (rack.recordBlock id frames).2.files.contents.lookup way := by
  by_cases hfree : free id
  · rw [files_recordBlock hnode, files_recordBlock htwin, hsame hfree]
    cases node.recorder with
    | none => exact h way hway
    | some recorder => exact Recorder.lookup_writeBlock_congr (h way hway) recorder _
  · -- Nothing is written to the file, neither here nor there.
    have hne : node.recorder.map (·.file) ≠ some way := fun heq => hfree (hspared way hway heq)
    rw [lookup_recordBlock_of_ne hnode hne, lookup_recordBlock_of_ne htwin (by rwa [hfile])]
    exact h way hway

theorem complete (h : Level free spared rack other) (hdeaf : Deaf axis free rack)
    (hrequest : request.AgreeOff axis request') {twin : Node}
    (hnode : rack.nodes[id]? = some node.touch) (htwin : other.nodes[id]? = some twin.touch)
    (hok : (complete request id node rack).1 = .ok ())
    (hok' : (Rack.complete request' id twin other).1 = .ok ()) :
    Level free spared (Rack.complete request id node rack).2
      (Rack.complete request' id twin other).2 := by
  obtain ⟨found, hfound, ⟨hdevice, hrange, hlast, hfile⟩, hsame⟩ := h.node hnode
  rw [htwin] at hfound
  cases hfound
  obtain ⟨result, hfill⟩ := exists_fill_of_complete hok
  obtain ⟨result', hfill'⟩ := exists_fill_of_complete hok'
  rw [snd_complete, snd_complete, hfill, hfill']
  have hspared : ∀ way, spared way → node.recorder.map (·.file) = some way → free id := by
    intro way hway hrecorder
    apply h.free_of_fileOf hway
    rw [fileOf, hnode]
    exact hrecorder
  have hresult : free id → twin = node ∧ result' = result := by
    intro hfree
    have htouched := hsame hfree
    have heq : twin = node := by
      cases twin
      cases node
      simpa [Node.touch] using htouched
    subst heq
    have hboth : Except.ok result' = Except.ok result :=
      (hfill'.symm.trans (h.fill_eq hdeaf hrequest hfree hnode twin.phase)).trans hfill
    exact ⟨rfl, Except.ok.inj hboth⟩
  apply h.replace (Step.nodes_fill hnode) (Step.nodes_fill htwin)
  · refine ⟨?_, ?_, ?_, ?_⟩
    · simpa [Step.filled, Node.store] using hdevice
    · simpa [Step.filled, Node.store] using hrange
    · simp [Step.filled, Node.store, hrequest.timestamp_eq]
    · rw [file_filled, file_filled]
      exact hfile
  · intro hfree
    obtain ⟨rfl, rfl⟩ := hresult hfree
    simp only [Step.filled, hrequest.timestamp_eq, hrequest.frames_eq]
  · intro way hway hrecorder
    rw [file_filled] at hrecorder
    exact hspared way hway hrecorder
  · have hstored : ∀ {rack : Rack} {node : Node} (result : Fill), rack.nodes[id]? = some node →
        (rack.update id (·.store request.timestamp result)).nodes[id]?
          = some (node.store request.timestamp result) := by
      intro rack node result hnode
      rw [getElem?_update, if_pos rfl, hnode]
      rfl
    rw [hrequest.timestamp_eq, hrequest.frames_eq]
    refine lookup_recordBlock ?_ (hstored result hnode) (hstored result' htwin) hfile ?_ hspared
      request.frames
    · exact h.lookup_eq
    · intro hfree
      obtain ⟨rfl, rfl⟩ := hresult hfree
      rfl

theorem forAll {base : Rack} {act act' : Nat → Rack → Except Error Unit × Rack} {ids : List Nat}
    (hact : ∀ id ∈ ids, ∀ rack other : Rack, rack.shape = base.shape →
      Level free spared rack other → (act id rack).1 = .ok () → (act' id other).1 = .ok () →
        (act id rack).2.shape = base.shape ∧ Level free spared (act id rack).2 (act' id other).2)
    (h : Level free spared rack other) (hshape : rack.shape = base.shape)
    (hok : (forAll act ids rack).1 = .ok ()) (hok' : (Rack.forAll act' ids other).1 = .ok ()) :
    Level free spared (Rack.forAll act ids rack).2 (Rack.forAll act' ids other).2 := by
  induction ids generalizing rack other with
  | nil => exact h
  | cons id rest ih =>
    rw [List.forall_mem_cons] at hact
    obtain ⟨hfirst, hrest⟩ := hact
    specialize hfirst rack other hshape h
    rw [Rack.forAll] at hok hok' ⊢
    rw [Rack.forAll]
    cases hresult : act id rack with
    | mk result next =>
      cases hresult' : act' id other with
      | mk result' next' =>
        rw [hresult] at hok hfirst
        rw [hresult'] at hok' hfirst
        cases result with
        | error e => cases hok
        | ok _ =>
          cases result' with
          | error e => cases hok'
          | ok _ =>
            obtain ⟨hnext, hlevel⟩ := hfirst rfl rfl
            exact ih hrest hlevel hnext hok hok'

theorem refresh (h : Level free spared rack other) (hdeaf : Deaf axis free rack)
    (hrequest : request.AgreeOff axis request') (hok : (refresh request id rack).1 = .ok ())
    (hok' : (Rack.refresh request' id other).1 = .ok ()) :
    Level free spared (Rack.refresh request id rack).2 (Rack.refresh request' id other).2 := by
  induction id using Nat.strongRecOn generalizing rack other with
  | ind id ih =>
    cases hnode : rack.nodes[id]? with
    | none =>
      rw [refresh_of_none hnode] at hok
      cases hok
    | some node =>
      obtain ⟨twin, htwin, hlevel, -⟩ := h.node hnode
      have hsame : twin.isStale request'.timestamp = node.isStale request.timestamp := by
        rw [Node.isStale_of_last_eq hlevel.last_eq, hrequest.timestamp_eq]
      cases hstale : node.isStale request.timestamp with
      | false =>
        rw [refresh_of_fresh hnode hstale, refresh_of_fresh htwin (hsame.trans hstale)]
        exact h
      | true =>
        obtain ⟨next, hreads, hshape, hself, hcomplete, heq⟩ := exists_of_refresh hnode hstale hok
        obtain ⟨next', hreads', -, hself', hcomplete', heq'⟩ :=
          exists_of_refresh htwin (hsame.trans hstale) hok'
        rw [hlevel.device_eq] at hreads'
        have hact : ∀ input ∈ node.device.reads, ∀ current current' : Rack,
            current.shape = rack.shape → Level free spared current current' →
              (refreshBelow request id input current).1 = .ok () →
              (refreshBelow request' id input current').1 = .ok () →
                (refreshBelow request id input current).2.shape = rack.shape ∧
                  Level free spared (refreshBelow request id input current).2
                    (refreshBelow request' id input current').2 := by
          intro input _ current current' hcurrent hlevel
          unfold refreshBelow
          split
          next hlt =>
            intro hok hok'
            exact ⟨(shape_refresh ..).trans hcurrent,
              ih input hlt hlevel (hdeaf.of_shape hcurrent) hok hok'⟩
          next => rintro ⟨⟩
        have hnext := forAll hact (h.touch hnode) (shape_touch rack id) (congrArg Prod.fst hreads)
          (congrArg Prod.fst hreads')
        rw [hreads, hreads'] at hnext
        rw [heq, heq']
        exact hnext.complete (hdeaf.of_shape hshape) hrequest hself hself' hcomplete hcomplete'

theorem output (h : Level free spared rack other) (hdeaf : Deaf axis free rack)
    (hrequest : request.AgreeOff axis request') {block block' : Block}
    (hok : (output request id rack).1 = .ok block)
    (hok' : (Rack.output request' id other).1 = .ok block') :
    Level free spared (Rack.output request id rack).2 (Rack.output request' id other).2 ∧
      (free id → block' = block) := by
  have hclamped : request.clamped.AgreeOff axis request'.clamped :=
    ⟨hrequest.timestamp_eq, congrArg (min · maxFrames) hrequest.frames_eq, hrequest.controls⟩
  have hnext := h.refresh hdeaf hclamped (refresh_of_output hok) (refresh_of_output hok')
  have hblock : ∀ {rack : Rack} {request : Request} {block : Block},
      (Rack.output request id rack).1 = .ok block →
        block = (Rack.refresh request.clamped id rack).2.blockOf id request.clamped.frames := by
    intro rack request block hok
    have hrefresh := refresh_of_output hok
    rw [fst_output_clamped, hrefresh] at hok
    exact (Except.ok.inj hok).symm
  rw [nodes_output_clamped, nodes_output_clamped]
  refine ⟨hnext, fun hfree => ?_⟩
  rw [hblock hok, hblock hok', hclamped.frames_eq]
  obtain ⟨node, hnode, -⟩ := (steps_refresh request.clamped id rack).2 (refresh_of_output hok)
  obtain ⟨twin, htwin, -, hsame⟩ := hnext.node hnode
  simp only [blockOf, hnode, htwin, hsame hfree]

theorem record (h : Level free spared rack other) {path : String} {scaler : Float32}
    (hok : rack.record id path scaler = (.ok (), next))
    (hok' : other.record id path scaler = (.ok (), next'))
    (hspared : ∀ {third : Nat} {way : Way}, spared way → next.fileOf third = some way →
      free third) : Level free spared next next' := by
  obtain ⟨node, hnode, hcases⟩ := record_cases hok
  obtain ⟨twin, htwin, hcases'⟩ := record_cases hok'
  obtain ⟨found, hfound, ⟨hdevice, hrange, hlast, hfile⟩, hsame⟩ := h.node hnode
  rw [htwin] at hfound
  cases hfound
  obtain ⟨hbusy, rfl⟩ | ⟨hidle, recorder, hcreate, hnodes⟩ := hcases
  · obtain ⟨-, rfl⟩ | ⟨hidle', -⟩ := hcases'
    · exact h
    · rw [hidle', Option.map_none, eq_comm, Option.map_eq_none_iff] at hfile
      exact absurd hfile hbusy
  · obtain ⟨hbusy', -⟩ | ⟨hidle', recorder', hcreate', hnodes'⟩ := hcases'
    · rw [hidle, Option.map_none, Option.map_eq_none_iff] at hfile
      exact absurd hfile hbusy'
    · obtain ⟨hrecorder, htarget, hcontents⟩ := Recorder.of_create hcreate
      obtain ⟨hrecorder', htarget', hcontents'⟩ := Recorder.of_create hcreate'
      have hsameFile : recorder'.file = recorder.file := by
        rw [way_of_target htarget, way_of_target htarget']
      have hchannels : twin.device.channels = node.device.channels := by rw [hdevice]
      rw [hsameFile, hchannels, ← hrecorder] at hrecorder'
      subst hrecorder'
      apply h.replace hnodes hnodes' ⟨hdevice, hrange, hlast, rfl⟩
      · intro hfree
        rw [hsame hfree]
      · intro way hway hfound
        apply hspared hway
        rw [fileOf, hnodes, if_pos rfl]
        exact hfound
      · intro way hway
        rw [hcontents, hcontents', hchannels, Files.lookup_store, Files.lookup_store,
          h.lookup_eq way hway]

theorem lookup_record (h : Level free spared rack other) (hidle : rack.fileOf id = none)
    {path : String} {scaler : Float32} (hok : rack.record id path scaler = (.ok (), next))
    (hok' : other.record id path scaler = (.ok (), next')) :
    next'.files.contents.lookup (Path.way path) = next.files.contents.lookup (Path.way path) := by
  have hlookup : ∀ {rack next : Rack} {node : Node}, rack.nodes[id]? = some node →
      node.recorder.map (·.file) = none → rack.record id path scaler = (.ok (), next) →
        next.files.contents.lookup (Path.way path)
          = some (Wav.header node.device.channels 0).toArray := by
    intro rack next node hnode hidle hok
    obtain ⟨found, hfound, hcases⟩ := record_cases hok
    rw [hnode] at hfound
    cases hfound
    obtain ⟨hbusy, -⟩ | ⟨-, recorder, hcreate, -⟩ := hcases
    · rw [Option.map_eq_none_iff] at hidle
      exact absurd hidle hbusy
    · obtain ⟨-, htarget, hcontents⟩ := Recorder.of_create hcreate
      rw [hcontents, Files.lookup_store, way_of_target htarget, if_pos rfl]
  obtain ⟨node, hnode, -⟩ := record_cases hok
  obtain ⟨twin, htwin, hlevel, -⟩ := h.node hnode
  have hfile : node.recorder.map (·.file) = none := by
    rw [← hidle, fileOf, hnode, Option.bind_some]
  rw [hlookup hnode hfile hok, hlookup htwin (hlevel.file_eq.trans hfile) hok', hlevel.device_eq]

theorem stop (h : Level free spared rack other) (id : Nat) :
    Level free spared (stop rack id).2 (Rack.stop other id).2 := by
  cases hnode : rack.nodes[id]? with
  | none =>
    simp only [Rack.stop, hnode, h.absent hnode]
    exact h
  | some node =>
    obtain ⟨twin, htwin, ⟨hdevice, hrange, hlast, hfile⟩, hsame⟩ := h.node hnode
    cases hrecorder : node.recorder with
    | none =>
      rw [hrecorder, Option.map_none, Option.map_eq_none_iff] at hfile
      simp only [Rack.stop, hnode, htwin, Option.bind_some, hrecorder, hfile]
      exact h
    | some recorder =>
      obtain ⟨recorder', hrecorder', hsameFile⟩ : ∃ recorder', twin.recorder = some recorder' ∧
          recorder'.file = recorder.file := by
        rw [hrecorder, Option.map_some, Option.map_eq_some_iff] at hfile
        exact hfile
      obtain ⟨hnodes, hfiles⟩ := stop_of_recorder hnode hrecorder
      obtain ⟨hnodes', hfiles'⟩ := stop_of_recorder htwin hrecorder'
      apply h.replace hnodes hnodes' ⟨hdevice, hrange, hlast, rfl⟩
      · intro hfree
        rw [hsame hfree]
      · rintro way hway ⟨⟩
      · intro way hway
        rw [hfiles, hfiles']
        by_cases hne : way = recorder.file
        · have hfree : free id := by
            apply h.free_of_fileOf hway
            rw [fileOf_eq hnode hrecorder, hne]
          have heq : recorder' = recorder := by
            rw [hsame hfree, hrecorder] at hrecorder'
            exact (Option.some.inj hrecorder').symm
          rw [heq]
          exact recorder.lookup_finish_congr (h.lookup_eq way hway)
        · have hne' : way ≠ recorder'.file := by rwa [hsameFile]
          exact (Recorder.lookup_finish_of_ne hne').trans
            ((h.lookup_eq way hway).trans (Recorder.lookup_finish_of_ne hne).symm)

end Level
end Rack
end PatchSynth
