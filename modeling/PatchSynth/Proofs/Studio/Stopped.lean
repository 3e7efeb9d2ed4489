import PatchSynth.Proofs.Studio.Recording

/-!
This module contains what is left when all recordings are stopped. The names are gone through, so
that a recorded node whose name was given to another one is passed over and goes on recording.
-/

namespace PatchSynth

def Table.Binds (table : Table) (id : Nat) : Prop :=
  id ∈ table.entries.map (·.2)

instance (table : Table) (id : Nat) : Decidable (table.Binds id) :=
  inferInstanceAs (Decidable (id ∈ table.entries.map (·.2)))

theorem Table.binds_of_get? {table : Table} {name : String} {id : Nat}
    (h : table.get? name = some id) : table.Binds id := by
  rw [get?_eq_lookup] at h
  obtain ⟨before, after, hentries, -⟩ := List.lookup_eq_some_iff.1 h
  simp [Binds, hentries]

namespace Rack

variable {rack next : Rack} {id : Nat} {way : Way}

theorem fileOf_stop (rack : Rack) (id other : Nat) :
    (rack.stop id).2.fileOf other = if other = id then none else rack.fileOf other := by
  unfold stop
  split
  next hidle =>
    split
    next hid => rw [hid, fileOf, hidle, Option.map_none]
    next => rfl
  next =>
    dsimp only
    rw [fileOf, getElem?_update]
    split
    next hid =>
      rw [if_pos hid.symm]
      cases rack.nodes[other]? <;> rfl
    next hid =>
      rw [if_neg (Ne.symm hid)]
      rfl

theorem WellFormed.fileOf_forAll_stop (h : rack.WellFormed) (ids : List Nat) (other : Nat) :
    (forAll (fun id rack => rack.stop id) ids rack).2.fileOf other
      = if other ∈ ids then none else rack.fileOf other := by
  induction ids generalizing rack with
  | nil => simp [forAll]
  | cons id rest ih =>
    have hstop := h.fst_stop id
    have hnext := h.stop id
    have hfile := rack.fileOf_stop id other
    unfold forAll
    split
    next hresult =>
      rw [hresult] at hstop
      cases hstop
    next hresult =>
      rw [hresult] at hnext hfile
      rw [ih hnext, hfile]
      by_cases hid : other = id <;> by_cases hmem : other ∈ rest <;> simp [hid, hmem]

theorem fileOf_record_of_ne {path : String} {scaler : Float32} {other : Nat} (hne : other ≠ id) :
    (rack.record id path scaler).2.fileOf other = rack.fileOf other := by
  cases hresult : rack.record id path scaler with
  | mk result next =>
    cases result with
    | error e => rw [snd_record_of_error hresult]
    | ok _ =>
      obtain ⟨node, hnode, ⟨-, rfl⟩ | ⟨hidle, -⟩⟩ := record_cases hresult
      · rfl
      · rw [fileOf_record hresult (by simp [fileOf, hnode, hidle]), if_neg hne]

theorem Quiet.fileOf_eq {Built : Device Nat → Rack → Prop} (h : Quiet Built rack next)
    (hfile : next.fileOf id = some way) : rack.fileOf id = some way := by
  induction h with
  | refl => exact hfile
  | add _ _ _ ih => exact ih (fileOf_of_add hfile)
  | stop _ other ih => exact ih (fileOf_of_stop hfile)

def Spent (rack : Rack) (way : Way) : Prop :=
  ∀ id, rack.fileOf id ≠ some way

theorem Spent.outputs (h : rack.Spent way) (pulls : List (Request × Nat)) :
    (rack.outputs pulls).files.contents.lookup way = rack.files.contents.lookup way := by
  induction pulls generalizing rack with
  | nil => rfl
  | cons pull rest ih =>
    have hfiles := rack.fileOf_output pull.1 pull.2
    have hnext : (rack.output pull.1 pull.2).2.Spent way := by
      intro id
      rw [hfiles]
      exact h id
    have hfirst : (rack.output pull.1 pull.2).2.files.contents.lookup way
        = rack.files.contents.lookup way := by
      rw [nodes_output]
      exact (steps_refresh _ pull.2 rack).1.lookup_of_ne fun other _ => h other
    exact (ih hnext).trans hfirst

theorem Spent.stop (h : rack.Spent way) (id : Nat) :
    (rack.stop id).2.files.contents.lookup way = rack.files.contents.lookup way := by
  unfold Rack.stop
  split
  next => rfl
  next recorder hrecorder =>
    apply Recorder.lookup_finish_of_ne
    rintro rfl
    apply h id
    rw [fileOf, hrecorder]
    rfl

theorem Spent.record (h : rack.Spent way) {path : String} {scaler : Float32}
    (hnext : (rack.record id path scaler).2.Spent way) :
    (rack.record id path scaler).2.files.contents.lookup way = rack.files.contents.lookup way := by
  cases hresult : rack.record id path scaler with
  | mk result next =>
    rw [hresult] at hnext
    cases result with
    | error e => rw [snd_record_of_error hresult]
    | ok _ =>
      obtain ⟨node, hnode, ⟨-, rfl⟩ | ⟨hidle, recorder, hcreate, -⟩⟩ := record_cases hresult
      · rfl
      · obtain ⟨-, htarget, hafter⟩ := Recorder.of_create hcreate
        have hnone : rack.fileOf id = none := by simp [fileOf, hnode, hidle]
        have hway : way ≠ recorder.file := by
          rintro rfl
          apply hnext id
          rw [fileOf_record hresult hnone, if_pos rfl, way_of_target htarget]
        rw [hafter, Files.lookup_store, if_neg hway]

theorem Spent.quiet {Built : Device Nat → Rack → Prop} (h : rack.Spent way)
    (hquiet : Quiet Built rack next) :
    next.files.contents.lookup way = rack.files.contents.lookup way := by
  induction hquiet with
  | refl => rfl
  | add _ _ _ ih => exact ih
  | stop hquiet other ih =>
    have hspent : Spent _ way := fun id hfile => h id (hquiet.fileOf_eq hfile)
    exact (hspent.stop other).trans ih

end Rack

namespace Studio

variable {studio last : Studio} {task : Task} {tasks : List Task} {id : Nat} {way : Way}

theorem lookup_performAll_of_spent (h : studio.Reached) (hallowed : studio.AllowsAll tasks)
    (hspares : studio.Spares way tasks) (hspent : studio.patch.rack.Spent way) :
    (studio.performAll tasks).patch.rack.files.contents.lookup way
      = studio.patch.rack.files.contents.lookup way := by
  induction tasks generalizing studio with
  | nil => rfl
  | cons task rest ih =>
    have hnext : (studio.perform task).patch.rack.Spent way :=
      fun id hid => hspent id (hspares.1 id hid)
    refine (ih (h.perform task hallowed.1) hallowed.2 hspares.2 hnext).trans ?_
    obtain heq | ⟨-, id, path, scaler, hasks⟩ | ⟨-, hquiet⟩ := perform_cases h hallowed.1
    · rw [heq]
      exact hspent.outputs _
    · have hrack : (studio.perform task).patch.rack = _ := hasks.rack_perform
      rw [hrack] at hnext ⊢
      exact hspent.record hnext
    · exact hspent.quiet hquiet

/--
Whether a task takes its last name from a node that is being recorded.
-/
structure Orphans (studio : Studio) (task : Task) (id : Nat) : Prop where
  recording : studio.patch.rack.isRecording id = true
  named : studio.patch.table.Binds id
  nameless : ¬ (studio.perform task).patch.table.Binds id

theorem binds_of_record (h : studio.Reached) (hallowed : studio.Allows task)
    (hnamed : ∀ path scaler, task ≠ .recordNode id path scaler)
    (hidle : studio.patch.rack.isRecording id = false)
    (hrecording : (studio.perform task).patch.rack.isRecording id = true) :
    (studio.perform task).patch.table.Binds id := by
  rw [Rack.isRecording_eq, Option.isSome_eq_false_iff, Option.isNone_iff_eq_none] at hidle
  rw [Rack.isRecording_eq, Option.isSome_iff_exists] at hrecording
  obtain ⟨way, hfile⟩ := hrecording
  obtain heq | ⟨-, other, path, scaler, hasks⟩ | ⟨-, hquiet⟩ := perform_cases h hallowed
  · rw [heq, Rack.fileOf_outputs, hidle] at hfile
    cases hfile
  · have hid : id = other := by
      by_contra hne
      rw [hasks.rack_perform, Rack.fileOf_record_of_ne hne, hidle] at hfile
      cases hfile
    subst hid
    obtain rfl | ⟨name, hname, rfl⟩ := hasks
    · exact absurd rfl (hnamed path scaler)
    · simp only [perform, Patch.record, hname]
      rw [Patch.table_recordNode]
      exact Table.binds_of_get? hname
  · rw [hquiet.fileOf_eq hfile] at hidle
    cases hidle

theorem exists_orphans {files : Files} (hallowed : (fresh files).AllowsAll tasks)
    (hnamed : ∀ path scaler, .recordNode id path scaler ∉ tasks)
    (hrecording : ((fresh files).performAll tasks).patch.rack.isRecording id = true)
    (hnameless : ¬ ((fresh files).performAll tasks).patch.table.Binds id) :
    ∃ earlier task later, tasks = earlier ++ task :: later ∧
      ((fresh files).performAll earlier).Orphans task id := by
  induction tasks using List.reverseRecOn with
  | nil => cases hrecording
  | append_singleton earlier task ih =>
    rw [allowsAll_append] at hallowed
    obtain ⟨hbefore, htask, -⟩ := hallowed
    have hreached : ((fresh files).performAll earlier).Reached :=
      (reached_fresh files).performAll hbefore
    rw [performAll_append] at hrecording hnameless
    cases hidle : ((fresh files).performAll earlier).patch.rack.isRecording id with
    | false =>
      refine absurd (binds_of_record hreached htask ?_ hidle hrecording) hnameless
      rintro path scaler rfl
      exact hnamed path scaler (by simp)
    | true =>
      by_cases hbinds : ((fresh files).performAll earlier).patch.table.Binds id
      · exact ⟨earlier, task, [], rfl, hidle, hbinds, hnameless⟩
      · have hearlier : ∀ path scaler, .recordNode id path scaler ∉ earlier :=
          fun path scaler hmem => hnamed path scaler (List.mem_append_left _ hmem)
        obtain ⟨before, orphaning, after, rfl, horphans⟩ := ih hbefore hearlier hidle hbinds
        exact ⟨before, orphaning, after ++ [task], by simp, horphans⟩

theorem Reached.isRecording_stopAll (h : studio.Reached) (id : Nat) :
    (studio.perform .stopAll).patch.rack.isRecording id = true ↔
      studio.patch.rack.isRecording id = true ∧ ¬ studio.patch.table.Binds id := by
  have hfile : (studio.perform .stopAll).patch.rack.fileOf id
      = if studio.patch.table.Binds id then none else studio.patch.rack.fileOf id :=
    h.reachable.wellFormed.fileOf_forAll_stop _ id
  rw [Rack.isRecording_eq, Rack.isRecording_eq, hfile]
  split <;> simp_all

/--
To stop all recordings succeeds and stops those of all nodes that have a name. A node goes on
recording only if it lost its name while it was recorded, so that nothing records any more when no
definition replaces a recorded node. A file that nobody records to any more stays as it is, until a
recording to it is started anew.
-/
theorem isRecording_of_stopAll {files : Files} (hallowed : (fresh files).AllowsAll tasks)
    (hnamed : ∀ id path scaler, .recordNode id path scaler ∉ tasks)
    (hlast : (fresh files).performAll tasks = last) :
    last.patch.stopAll.1 = .ok () ∧
    (∀ id, (last.perform .stopAll).patch.rack.isRecording id = true ↔
      last.patch.rack.isRecording id = true ∧ ¬ last.patch.table.Binds id) ∧
    (∀ id, (last.perform .stopAll).patch.rack.isRecording id = true →
      ∃ earlier task later, tasks = earlier ++ task :: later ∧
        ((fresh files).performAll earlier).Orphans task id) ∧
    ∀ way more, (last.perform .stopAll).patch.rack.Spent way →
      (last.perform .stopAll).AllowsAll more → (last.perform .stopAll).Spares way more →
        ((last.perform .stopAll).performAll more).patch.rack.files.contents.lookup way
          = (last.perform .stopAll).patch.rack.files.contents.lookup way := by
  have hreached : last.Reached := hlast ▸ (reached_fresh files).performAll hallowed
  have hstopped := hreached.isRecording_stopAll
  refine ⟨hreached.reachable.wellFormed.fst_forAll_stop _, hstopped, ?_, ?_⟩
  · intro id hrecording
    obtain ⟨hrecording, hnameless⟩ := (hstopped id).1 hrecording
    rw [← hlast] at hrecording hnameless
    exact exists_orphans hallowed (hnamed id) hrecording hnameless
  · intro way more hspent hmore hspares
    exact lookup_performAll_of_spent (hreached.perform .stopAll trivial) hmore hspares hspent

def sketched : Studio :=
  (fresh {}).perform (.parse "Constant c(1)\nAdd d(c, c)\nConstant e(2)")

def handover : List Task :=
  [.parse "Constant c(1)\nAdd d(c, c)\nConstant e(2)", .record "c" "x" 1, .insert "c" 2]

def handedOver : Studio :=
  (fresh {}).performAll handover

theorem starts_sketched : sketched.Starts (.record "c" "x" 1) 0 "x" 1 := by
  have htarget : Files.target {} "x" = .ok ["x"] := by cbv
  exact starts_of_target rfl (by decide) rfl htarget

theorem rack_handedOver : handedOver.patch.rack = (sketched.patch.rack.record 0 "x" 1).2 := by
  have hinsert : handedOver.patch.rack = (sketched.perform (.record "c" "x" 1)).patch.rack :=
    Patch.rack_insert _ "c" 2
  rw [hinsert, starts_sketched.asks.rack_perform]

theorem shape_handedOver : handedOver.patch.rack.shape = sketched.patch.rack.shape := by
  rw [rack_handedOver, Rack.shape_snd_record]

theorem entries_handedOver :
    handedOver.patch.table.entries = [("c", 2), ("d", 1), ("e", 2)] := by
  have hname : sketched.patch.table.get? "c" = some 0 := rfl
  have hrecord : (sketched.perform (.record "c" "x" 1)).patch.table = sketched.patch.table := by
    simp only [perform, Patch.record, hname]
    exact Patch.table_recordNode _ 0 "x" 1
  have hinsert : handedOver.patch.table
      = ((sketched.perform (.record "c" "x" 1)).patch.table.insert "c" 2).2 :=
    Patch.table_insert _ "c" 2
  rw [hinsert, hrecord]
  rfl

theorem allowed_handover : (fresh {}).AllowsAll handover := by
  have hsize : (sketched.perform (.record "c" "x" 1)).patch.rack.nodes.size = 3 := by
    rw [starts_sketched.asks.rack_perform,
      Rack.size_nodes_of_shape (Rack.shape_snd_record sketched.patch.rack 0 "x" 1)]
    rfl
  have hlt : 2 < (sketched.perform (.record "c" "x" 1)).patch.rack.nodes.size := by
    rw [hsize]
    decide
  exact ⟨trivial, trivial, hlt, trivial⟩

theorem orphaned_handedOver :
    handedOver.patch.rack.isRecording 0 = true ∧ ¬ handedOver.patch.table.Binds 0 := by
  refine ⟨?_, ?_⟩
  · rw [rack_handedOver, ← starts_sketched.asks.rack_perform]
    exact starts_sketched.recording
  · rw [Table.Binds, entries_handedOver]
    decide

theorem reaches_handedOver : handedOver.patch.rack.Reaches 1 0 := by
  obtain ⟨sum, hsum, hdevice, -⟩ := Rack.exists_of_shape shape_handedOver.symm
    (show sketched.patch.rack.nodes[1]? = some _ from rfl)
  apply Relation.ReflTransGen.single
  refine ⟨sum, hsum, ?_⟩
  rw [hdevice]
  exact List.mem_cons_self

theorem isRecording_handedOver :
    (fresh {}).AllowsAll handover ∧ sketched.patch.table.get? "c" = some 0 ∧
      sketched.Starts (.record "c" "x" 1) 0 "x" 1 ∧ handedOver.patch.table.get? "d" = some 1 ∧
      handedOver.patch.rack.Reaches 1 0 ∧ handedOver.patch.stopAll.1 = .ok () ∧
      (handedOver.perform .stopAll).patch.rack.isRecording 0 = true := by
  have hreached : handedOver.Reached := (reached_fresh {}).performAll allowed_handover
  have hname : handedOver.patch.table.get? "d" = some 1 := by
    rw [Table.get?_eq_lookup, entries_handedOver]
    rfl
  exact ⟨allowed_handover, rfl, starts_sketched, hname, reaches_handedOver,
    hreached.reachable.wellFormed.fst_forAll_stop _,
    (hreached.isRecording_stopAll 0).2 orphaned_handedOver⟩

theorem isRecording_of_stopAll_handedOver :
    (fresh {}).AllowsAll handover ∧ (fresh {}).performAll handover = handedOver ∧
      (handedOver.perform .stopAll).patch.rack.isRecording 0 = true ∧
      ∃ earlier task later, handover = earlier ++ task :: later ∧
        ((fresh {}).performAll earlier).Orphans task 0 := by
  have hnamed : ∀ id path scaler, .recordNode id path scaler ∉ handover := by
    simp [handover]
  obtain ⟨-, hstopped, horphans, -⟩ := isRecording_of_stopAll allowed_handover hnamed rfl
  have hrecording := (hstopped 0).2 orphaned_handedOver
  exact ⟨allowed_handover, rfl, hrecording, horphans 0 hrecording⟩

end Studio
end PatchSynth
