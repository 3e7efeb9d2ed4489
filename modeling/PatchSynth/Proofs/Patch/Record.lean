import PatchSynth.Patch.Basic
import PatchSynth.Proofs.Rack.Later
import PatchSynth.Proofs.Rack.Unrecorded

/-!
This module contains the start of recordings before anything is played. Each node is recorded by the
first take of its name, and distinct ways keep the files of the takes apart.
-/

namespace PatchSynth

structure Take where
  name : String
  path : String
  scaler : Float32

namespace Take

def way (take : Take) : Way :=
  Path.way take.path

def source (take : Take) : String × Float32 :=
  (take.name, take.scaler)

end Take

namespace Rack

variable {rack next : Rack} {id : Nat} {path : String} {scaler : Float32}

def tagOf (rack : Rack) (id : Nat) : Option (Way × Float32) :=
  (rack.nodes[id]?.bind (·.recorder)).map fun recorder => (recorder.file, recorder.scaler)

theorem fileOf_eq_map_tagOf (rack : Rack) (id : Nat) :
    rack.fileOf id = (rack.tagOf id).map Prod.fst := by
  rw [fileOf, tagOf, Option.map_map]
  rfl

theorem tagOf_eq_some_iff {tag : Way × Float32} :
    rack.tagOf id = some tag ↔ ∃ node recorder, rack.nodes[id]? = some node ∧
      node.recorder = some recorder ∧ (recorder.file, recorder.scaler) = tag := by
  simp only [tagOf, Option.map_eq_some_iff, Option.bind_eq_some_iff]
  constructor
  · rintro ⟨recorder, ⟨node, hnode, hrecorder⟩, htag⟩
    exact ⟨node, recorder, hnode, hrecorder, htag⟩
  · rintro ⟨node, recorder, hnode, hrecorder, htag⟩
    exact ⟨recorder, ⟨node, hnode, hrecorder⟩, htag⟩

theorem record_cases (h : rack.record id path scaler = (.ok (), next)) :
    ∃ node, rack.nodes[id]? = some node ∧
      ((node.recorder ≠ none ∧ next = rack) ∨
        (node.recorder = none ∧ ∃ recorder,
          Recorder.create rack.files path node.device.channels scaler
            = .ok (recorder, next.files) ∧
          ∀ other, next.nodes[other]? = if id = other then
              some { node with recorder := some recorder }
            else
              rack.nodes[other]?)) := by
  unfold record at h
  split at h
  next => cases h
  next node hnode =>
    refine ⟨node, hnode, ?_⟩
    split at h
    next hrecorder =>
      cases h
      refine Or.inl ⟨?_, rfl⟩
      intro hnone
      rw [hnone] at hrecorder
      cases hrecorder
    next hrecorder =>
      split at h
      next => cases h
      next recorder files hcreate =>
        cases h
        refine Or.inr ⟨by simpa using hrecorder, recorder, hcreate, ?_⟩
        intro other
        have hupdate := getElem?_update rack id other fun node =>
          { node with recorder := some recorder }
        split
        next hid =>
          subst hid
          rw [if_pos rfl, hnode] at hupdate
          exact hupdate
        next hid =>
          rw [if_neg hid] at hupdate
          exact hupdate

structure Apart (ways : List Way) (rack : Rack) : Prop where
  holds : ∀ {id : Nat} {node : Node} {recorder : Recorder}, rack.nodes[id]? = some node →
    node.recorder = some recorder → recorder.Holds rack.files node.device.channels []
  alone : ∀ {id : Nat} {file : Way}, rack.fileOf id = some file → rack.Alone id file
  free : ∀ {id : Nat} {file : Way}, rack.fileOf id = some file → file ∉ ways

theorem Apart.tail {way : Way} {ways : List Way} (h : rack.Apart (way :: ways)) :
    rack.Apart ways := by
  refine ⟨h.holds, h.alone, ?_⟩
  intro id file hfile hmem
  exact h.free hfile (List.mem_cons_of_mem _ hmem)

section Unrecorded

variable (h : ∀ (id : Nat) (node : Node), rack.nodes[id]? = some node → node.recorder = none)

include h

theorem tagOf_of_unrecorded (id : Nat) : rack.tagOf id = none := by
  cases htag : rack.tagOf id with
  | none => rfl
  | some tag =>
    obtain ⟨node, recorder, hnode, hrecorder, -⟩ := tagOf_eq_some_iff.1 htag
    rw [h id node hnode] at hrecorder
    cases hrecorder

theorem apart_of_unrecorded (ways : List Way) : rack.Apart ways := by
  have hnone : ∀ {id : Nat} {file : Way}, rack.fileOf id ≠ some file := by
    intro id file hfile
    rw [fileOf_eq_map_tagOf, tagOf_of_unrecorded h] at hfile
    cases hfile
  refine ⟨?_, fun hfile => absurd hfile hnone, fun hfile => absurd hfile hnone⟩
  intro id node recorder hnode hrecorder
  rw [h id node hnode] at hrecorder
  cases hrecorder

end Unrecorded

theorem way_of_target {files : Files} {way : Way} (h : files.target path = .ok way) :
    way = Path.way path :=
  Files.way_of_locate (Files.target_eq_ok_iff.1 h).1

theorem tagOf_record (h : rack.record id path scaler = (.ok (), next)) (other : Nat) :
    next.tagOf other
      = if other = id then
          (rack.tagOf id).or (some (Path.way path, scaler))
        else
          rack.tagOf other := by
  obtain ⟨node, hnode, ⟨hrecorder, rfl⟩ | ⟨hrecorder, recorder, hcreate, hnodes⟩⟩ :=
    record_cases h
  · split
    next hid =>
      subst hid
      cases hnone : node.recorder with
      | none => exact absurd hnone hrecorder
      | some recorder => simp [tagOf, hnode, hnone]
    next => rfl
  · obtain ⟨hliteral, htarget, -⟩ := Recorder.of_create hcreate
    rw [tagOf, hnodes]
    split
    next hid =>
      subst hid
      rw [if_pos rfl, tagOf, hnode]
      simp only [Option.map_some, Option.bind_some, hrecorder, Option.map_none, Option.none_or]
      rw [way_of_target htarget, hliteral]
    next hid =>
      rw [if_neg (Ne.symm hid)]
      rfl

theorem fileOf_record (h : rack.record id path scaler = (.ok (), next))
    (hnone : rack.fileOf id = none) (other : Nat) :
    next.fileOf other = if other = id then some (Path.way path) else rack.fileOf other := by
  rw [fileOf_eq_map_tagOf, Option.map_eq_none_iff] at hnone
  rw [fileOf_eq_map_tagOf, tagOf_record h, fileOf_eq_map_tagOf]
  split
  next =>
    rw [hnone]
    rfl
  next => rfl

theorem Apart.record {ways : List Way} (h : rack.Apart (Path.way path :: ways))
    (hnew : Path.way path ∉ ways) (hrecord : rack.record id path scaler = (.ok (), next)) :
    next.Apart ways := by
  obtain ⟨node, hnode, ⟨-, rfl⟩ | ⟨hrecorder, recorder, hcreate, hnodes⟩⟩ := record_cases hrecord
  · -- The node is being recorded already, and keeps its recorder.
    exact h.tail
  · obtain ⟨-, htarget, hafter⟩ := Recorder.of_create hcreate
    have hway := way_of_target htarget
    have hnone : rack.fileOf id = none := by simp [fileOf, hnode, hrecorder]
    have hfile := fileOf_record hrecord hnone
    -- The way of the new file was free.
    have hold : ∀ other file, rack.fileOf other = some file → file ≠ Path.way path := by
      intro other file hother heq
      apply h.free hother
      rw [heq]
      exact List.mem_cons_self ..
    refine ⟨?_, ?_, ?_⟩
    · intro other now taken hnow htaken
      rw [hnodes] at hnow
      split at hnow
      next =>
        cases hnow
        cases htaken
        exact Recorder.holds_create node.device.channels_le_two hcreate
      next =>
        apply (h.holds hnow htaken).of_lookup_eq
        rw [hafter, Files.lookup_store, if_neg]
        rw [hway]
        exact hold other _ (fileOf_eq hnow htaken)
    · intro other file hother third hne hthird
      rw [hfile] at hother hthird
      split at hother
      next hid =>
        cases hother
        rw [if_neg (by rw [← hid]; exact hne)] at hthird
        exact hold third _ hthird rfl
      next hid =>
        split at hthird
        next =>
          cases hthird
          exact hold other _ hother rfl
        next => exact h.alone hother third hne hthird
    · intro other file hother
      rw [hfile] at hother
      split at hother
      next =>
        cases hother
        exact hnew
      next => exact h.tail.free hother

theorem Unplayed.record (hrack : rack.Unplayed) (h : rack.record id path scaler = (.ok (), next)) :
    next.Unplayed := by
  obtain ⟨node, hnode, ⟨-, rfl⟩ | ⟨-, recorder, -, hnodes⟩⟩ := record_cases h
  · exact hrack
  · intro other now hnow
    rw [hnodes] at hnow
    split at hnow
    next =>
      cases hnow
      exact hrack id node hnode
    next => exact hrack other now hnow

end Rack

namespace Patch

variable {patch next : Patch}

def recordAll (patch : Patch) : List Take → Except Error Unit × Patch
  | [] => (.ok (), patch)
  | take :: rest =>
    match patch.record take.name take.path take.scaler with
    | (.error e, patch) => (.error e, patch)
    | (.ok (), patch) => patch.recordAll rest

/--
The take that decides where a node is recorded to, which is the first one of its name.
-/
def takeOf (patch : Patch) (takes : List Take) (id : Nat) : Option Take :=
  takes.find? fun take => patch.table.get? take.name = some id

theorem of_takeOf {takes : List Take} {id : Nat} {take : Take}
    (h : patch.takeOf takes id = some take) :
    take ∈ takes ∧ patch.table.get? take.name = some id := by
  unfold takeOf at h
  exact ⟨List.mem_of_find?_eq_some h, by simpa using List.find?_some h⟩

theorem recordNode_eq (patch : Patch) (id : Nat) (path : String) (scaler : Float32) :
    ((patch.recordNode id path scaler).1, (patch.recordNode id path scaler).2.rack)
        = patch.rack.record id path scaler ∧
      (patch.recordNode id path scaler).2.table = patch.table := by
  unfold recordNode
  dsimp only
  split
  next hrecording =>
    refine ⟨?_, rfl⟩
    unfold Rack.isRecording at hrecording
    unfold Rack.record
    split at hrecording
    next node hnode =>
      simp only [hnode, hrecording, if_true]
      rfl
    next => cases hrecording
  next =>
    split
    next hresult => exact ⟨hresult.symm, rfl⟩
    next hresult => exact ⟨hresult.symm, rfl⟩

theorem fst_recordNode (patch : Patch) (id : Nat) (path : String) (scaler : Float32) :
    (patch.recordNode id path scaler).1 = (patch.rack.record id path scaler).1 :=
  congrArg Prod.fst (patch.recordNode_eq id path scaler).1

theorem rack_recordNode (patch : Patch) (id : Nat) (path : String) (scaler : Float32) :
    (patch.recordNode id path scaler).2.rack = (patch.rack.record id path scaler).2 :=
  congrArg Prod.snd (patch.recordNode_eq id path scaler).1

theorem table_recordNode (patch : Patch) (id : Nat) (path : String) (scaler : Float32) :
    (patch.recordNode id path scaler).2.table = patch.table :=
  (patch.recordNode_eq id path scaler).2

theorem of_record {name path : String} {scaler : Float32}
    (h : patch.record name path scaler = (.ok (), next)) :
    next.table = patch.table ∧ ∃ id, patch.table.get? name = some id ∧
      patch.rack.record id path scaler = (.ok (), next.rack) := by
  unfold record at h
  split at h
  next id hid =>
    have heq := (patch.recordNode_eq id path scaler).1
    have htable := patch.table_recordNode id path scaler
    rw [h] at heq htable
    exact ⟨htable, id, hid, heq.symm⟩
  next => cases h

theorem fst_record {name path : String} {scaler : Float32} {id : Nat} {way : Way}
    (hid : patch.table.get? name = some id) (hlt : id < patch.rack.nodes.size)
    (htarget : patch.rack.files.target path = .ok way) :
    (patch.record name path scaler).1 = .ok () := by
  have hnode : patch.rack.nodes[id]? = some patch.rack.nodes[id] := Array.getElem?_eq_getElem hlt
  have hrecord : (patch.rack.record id path scaler).1 = .ok () := by
    unfold Rack.record
    rw [hnode]
    dsimp only
    split
    next => rfl
    next =>
      rw [Recorder.create_of_target htarget]
  unfold record recordNode
  rw [hid]
  dsimp only
  split
  next => rfl
  next =>
    split
    next h =>
      rw [h] at hrecord
      cases hrecord
    next => rfl

theorem recordAll_cons {take : Take} {rest : List Take}
    (h : patch.recordAll (take :: rest) = (.ok (), next)) :
    ∃ first, patch.record take.name take.path take.scaler = (.ok (), first) ∧
      first.recordAll rest = (.ok (), next) := by
  rw [recordAll] at h
  split at h
  next => cases h
  next first hfirst => exact ⟨first, hfirst, h⟩

theorem table_recordAll {takes : List Take} (h : patch.recordAll takes = (.ok (), next)) :
    next.table = patch.table := by
  induction takes generalizing patch with
  | nil =>
    cases h
    rfl
  | cons take rest ih =>
    obtain ⟨first, hfirst, hrest⟩ := recordAll_cons h
    rw [ih hrest, (of_record hfirst).1]

theorem recordAll_keep {P : Rack → Prop}
    (hkeep : ∀ {rack next : Rack} {id : Nat} {path : String} {scaler : Float32}, P rack →
      rack.record id path scaler = (.ok (), next) → P next)
    {takes : List Take} (h : patch.recordAll takes = (.ok (), next)) (hpatch : P patch.rack) :
    P next.rack := by
  induction takes generalizing patch with
  | nil =>
    cases h
    exact hpatch
  | cons take rest ih =>
    obtain ⟨first, hfirst, hrest⟩ := recordAll_cons h
    obtain ⟨-, id, -, hrecord⟩ := of_record hfirst
    exact ih hrest (hkeep hpatch hrecord)

theorem shape_recordAll {takes : List Take} (h : patch.recordAll takes = (.ok (), next)) :
    next.rack.shape = patch.rack.shape := by
  apply recordAll_keep (P := fun rack => rack.shape = patch.rack.shape) _ h rfl
  intro rack next id path scaler hrack hrecord
  have hshape := rack.shape_snd_record id path scaler
  rw [hrecord] at hshape
  exact hshape.trans hrack

theorem unplayed_recordAll {takes : List Take} (h : patch.recordAll takes = (.ok (), next))
    (hpatch : patch.rack.Unplayed) : next.rack.Unplayed :=
  recordAll_keep (fun hrack hrecord => hrack.record hrecord) h hpatch

theorem wellFormed_recordAll {takes : List Take} (h : patch.recordAll takes = (.ok (), next))
    (hpatch : patch.rack.WellFormed) : next.rack.WellFormed := by
  apply recordAll_keep (P := Rack.WellFormed) _ h hpatch
  intro rack next id path scaler hrack hrecord
  have hnext := hrack.record id path scaler
  rw [hrecord] at hnext
  exact hnext

theorem apart_recordAll {takes : List Take} (h : patch.recordAll takes = (.ok (), next))
    (hways : (takes.map Take.way).Nodup) (hpatch : patch.rack.Apart (takes.map Take.way)) :
    next.rack.Apart [] := by
  induction takes generalizing patch with
  | nil =>
    cases h
    exact hpatch
  | cons take rest ih =>
    obtain ⟨first, hfirst, hrest⟩ := recordAll_cons h
    obtain ⟨-, id, -, hrecord⟩ := of_record hfirst
    rw [List.map_cons, List.nodup_cons] at hways
    obtain ⟨hnew, hways⟩ := hways
    exact ih hrest hways (hpatch.record hnew hrecord)

theorem tagOf_recordAll {takes : List Take} (h : patch.recordAll takes = (.ok (), next))
    (id : Nat) :
    next.rack.tagOf id
      = (patch.rack.tagOf id).or
          ((patch.takeOf takes id).map fun take => (take.way, take.scaler)) := by
  induction takes generalizing patch with
  | nil =>
    cases h
    simp [takeOf]
  | cons take rest ih =>
    obtain ⟨first, hfirst, hrest⟩ := recordAll_cons h
    obtain ⟨htable, named, hnamed, hrecord⟩ := of_record hfirst
    have htakeOf : first.takeOf rest id = patch.takeOf rest id := by
      rw [takeOf, takeOf, htable]
    have hcons : patch.takeOf (take :: rest) id
        = if id = named then some take else patch.takeOf rest id := by
      rw [takeOf, List.find?_cons, hnamed]
      by_cases hid : id = named
      · simp [hid]
      · have hother : ¬ some named = some id := by
          intro heq
          exact hid (Option.some.inj heq).symm
        simp only [decide_eq_false hother, if_neg hid]
        rfl
    rw [ih hrest, Rack.tagOf_record hrecord, htakeOf, hcons]
    split
    next hid =>
      subst hid
      cases patch.rack.tagOf id <;> rfl
    next => rfl

theorem recordAll_ok {takes : List Take}
    (htakes : ∀ take ∈ takes, ∃ id way, patch.table.get? take.name = some id ∧
      id < patch.rack.nodes.size ∧ patch.rack.files.target take.path = .ok way) :
    (patch.recordAll takes).1 = .ok () := by
  induction takes generalizing patch with
  | nil => rfl
  | cons take rest ih =>
    obtain ⟨⟨id, way, hname, hlt, htarget⟩, hrest⟩ := List.forall_mem_cons.1 htakes
    have hok : (patch.record take.name take.path take.scaler).1 = .ok () :=
      fst_record hname hlt htarget
    rw [recordAll]
    cases hrecord : patch.record take.name take.path take.scaler with
    | mk result next =>
      rw [hrecord] at hok
      cases hok
      obtain ⟨htable, found, -, hrack⟩ := of_record hrecord
      have hlater := Rack.later_of_record hrack
      apply ih
      intro other hmem
      obtain ⟨id, way, hname, hlt, htarget⟩ := hrest other hmem
      refine ⟨id, way, by rw [htable]; exact hname, ?_, ?_⟩
      · exact Nat.lt_of_lt_of_le hlt (Rack.size_le_of_later hlater)
      · exact Files.target_of_directories hlater.directories_eq htarget

theorem later_recordAll {takes : List Take} (h : patch.recordAll takes = (.ok (), next)) :
    patch.rack.Later next.rack := by
  apply recordAll_keep (P := fun rack => patch.rack.Later rack) _ h Rack.Later.refl
  intro rack next id path scaler hrack hrecord
  exact hrack.trans (Rack.later_of_record hrecord)

theorem unrecorded_recordAll {takes : List Take} (h : patch.recordAll takes = (.ok (), next)) :
    next.rack.unrecorded = patch.rack.unrecorded := by
  apply recordAll_keep (P := fun rack => rack.unrecorded = patch.rack.unrecorded) _ h rfl
  intro rack next id path scaler hrack hrecord
  have hsame := rack.unrecorded_record id path scaler
  rw [hrecord] at hsame
  exact hsame.trans hrack

end Patch
end PatchSynth
