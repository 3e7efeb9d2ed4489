import PatchSynth.Proofs.Rack.Isolation
import PatchSynth.Proofs.Studio.Unrecorded

/-!
This module contains that a control axis reaches only what reads it. A session is run twice, with
other values for one axis. As long as both runs succeed, a node that the axis does not lead to gives
the same blocks, and a file that only such nodes are recorded to gets the same bytes.
-/

namespace PatchSynth

inductive Play.AgreeOff (axis : Int) : Play → Play → Prop where
  | render (frames : Nat) {controls controls' : Controls}
      (h : Controls.AgreeOff axis controls controls') :
      AgreeOff axis (.render controls frames) (.render controls' frames)
  | renderPcm (out : Array Int16) {controls controls' : Controls}
      (h : Controls.AgreeOff axis controls controls') :
      AgreeOff axis (.renderPcm controls out) (.renderPcm controls' out)
  | runOffline (blocks frames : Nat) {controls controls' : Controls}
      (h : Controls.AgreeOff axis controls controls') :
      AgreeOff axis (.runOffline controls blocks frames) (.runOffline controls' blocks frames)

theorem Play.AgreeOff.refl (axis : Int) (play : Play) : play.AgreeOff axis play := by
  cases play with
  | render controls frames => exact .render frames fun _ _ => rfl
  | renderPcm controls out => exact .renderPcm out fun _ _ => rfl
  | runOffline controls blocks frames => exact .runOffline blocks frames fun _ _ => rfl

namespace Player

variable {axis : Int} {free : Nat → Prop} {spared : Way → Prop} {player : Player}
  {patch other : Patch} {controls controls' : Controls} {frames : Nat}

theorem level_render (h : Rack.Level free spared patch.rack other.rack)
    (hdeaf : Rack.Deaf axis free patch.rack) (hcontrols : Controls.AgreeOff axis controls controls')
    {block block' : Block} (hok : (player.render controls frames patch).1 = .ok block)
    (hok' : (player.render controls' frames other).1 = .ok block') :
    Rack.Level free spared (player.render controls frames patch).2.2.rack
        (player.render controls' frames other).2.2.rack ∧
      (free player.output → block' = block) := by
  have hrequest : Request.AgreeOff axis { timestamp := player.clock, frames, controls }
      { timestamp := player.clock, frames, controls := controls' } := ⟨rfl, rfl, hcontrols⟩
  exact h.output hdeaf hrequest hok hok'

theorem exists_render_of_advance {rest : List (Controls × Nat)}
    (h : (player.advance patch ((controls, frames) :: rest)).1 = .ok ()) :
    ∃ block, (player.render controls frames patch).1 = .ok block := by
  cases hresult : (player.render controls frames patch).1 with
  | error e =>
    have hall : Avoids (fun _ => True) (player.advance patch ((controls, frames) :: rest)).1 := by
      rw [h]
      rintro e ⟨⟩
    exact absurd trivial (avoids_render hall e hresult)
  | ok block => exact ⟨block, rfl⟩

theorem level_advance (h : Rack.Level free spared patch.rack other.rack)
    (hdeaf : Rack.Deaf axis free patch.rack) {calls calls' : List (Controls × Nat)}
    (hcalls : List.Forall₂ (fun call call' =>
      Controls.AgreeOff axis call.1 call'.1 ∧ call'.2 = call.2) calls calls')
    (hok : (player.advance patch calls).1 = .ok ())
    (hok' : (player.advance other calls').1 = .ok ()) :
    (player.advance other calls').2.1 = (player.advance patch calls).2.1 ∧
      Rack.Level free spared (player.advance patch calls).2.2.rack
        (player.advance other calls').2.2.rack := by
  induction hcalls generalizing player patch other with
  | nil => exact ⟨rfl, h⟩
  | @cons call call' rest rest' hcall hrest ih =>
    obtain ⟨controls, frames⟩ := call
    obtain ⟨controls', frames'⟩ := call'
    obtain ⟨hcontrols, rfl⟩ := hcall
    have hshape := shape_render player controls frames' patch
    have hplayer : (player.render controls' frames' other).2.1
        = (player.render controls frames' patch).2.1 := rfl
    have hlevel := @level_render axis free spared player patch other controls controls' frames' h
      hdeaf hcontrols
    rw [advance] at hok hok' ⊢
    rw [advance]
    generalize player.render controls frames' patch = rendered at *
    generalize player.render controls' frames' other = rendered' at *
    obtain ⟨result, next, now⟩ := rendered
    obtain ⟨result', next', now'⟩ := rendered'
    cases result with
    | error e => cases hok
    | ok block =>
      cases result' with
      | error e => cases hok'
      | ok block' =>
        cases hplayer
        exact ih (hlevel rfl rfl).1 (hdeaf.of_shape hshape) hok hok'

theorem table_advance (player : Player) (patch : Patch) (calls : List (Controls × Nat)) :
    (player.advance patch calls).2.2.table = patch.table := by
  induction calls generalizing player patch with
  | nil => rfl
  | cons call rest ih =>
    obtain ⟨controls, frames⟩ := call
    have htable : (player.render controls frames patch).2.2.table = patch.table := rfl
    rw [advance]
    split
    next heq =>
      rw [heq] at htable
      exact htable
    next heq =>
      rw [heq] at htable
      exact (ih _ _).trans htable

theorem forall₂_calls {play play' : Play} (h : play.AgreeOff axis play') :
    List.Forall₂ (fun call call' => Controls.AgreeOff axis call.1 call'.1 ∧ call'.2 = call.2)
      play.calls play'.calls := by
  cases h with
  | render frames h => exact .cons ⟨h, rfl⟩ .nil
  | renderPcm out h => exact .cons ⟨h, rfl⟩ .nil
  | runOffline blocks frames h =>
    induction blocks with
    | zero => exact .nil
    | succ blocks ih => exact .cons ⟨h, rfl⟩ ih

theorem fst_reply_of_level (h : Rack.Level free spared patch.rack other.rack)
    (hdeaf : Rack.Deaf axis free patch.rack) (hfree : free player.output) {play play' : Play}
    (hplay : play.AgreeOff axis play') (hok : (player.play patch play).1 = .ok ())
    (hok' : (player.play other play').1 = .ok ()) :
    (player.reply other play').1 = (player.reply patch play).1 := by
  cases hplay with
  | runOffline blocks frames hcontrols =>
    exact congrArg Reply.done (hok'.trans hok.symm)
  | render frames hcontrols =>
    rw [play_eq_advance] at hok hok'
    obtain ⟨block, hrender⟩ := exists_render_of_advance hok
    obtain ⟨block', hrender'⟩ := exists_render_of_advance hok'
    obtain ⟨-, hsame⟩ := level_render h hdeaf hcontrols hrender hrender'
    refine congrArg Reply.block ?_
    rw [hsame hfree] at hrender'
    exact hrender'.trans hrender.symm
  | renderPcm out hcontrols =>
    rw [play_eq_advance] at hok hok'
    obtain ⟨block, hrender⟩ := exists_render_of_advance hok
    obtain ⟨block', hrender'⟩ := exists_render_of_advance hok'
    obtain ⟨-, hsame⟩ := level_render h hdeaf hcontrols hrender hrender'
    rw [hsame hfree] at hrender'
    have hreply : ∀ {controls : Controls} {patch : Patch},
        (player.render controls (framesFor out.size) patch).1 = .ok block →
          (player.reply patch (.renderPcm controls out)).1
            = .pcm (.ok (framesFor out.size))
                (Pcm.convertStereo block (out.extract 0 (2 * framesFor out.size))
                  ++ out.extract (2 * framesFor out.size) out.size) := by
      intro controls patch hrender
      rw [reply, renderPcm]
      dsimp only
      generalize player.render controls (framesFor out.size) patch = rendered at hrender
      obtain ⟨result, next, patch⟩ := rendered
      dsimp only at hrender
      rw [hrender]
    rw [hreply hrender, hreply hrender']

end Player

namespace Studio

inductive Task.AgreeOff (axis : Int) : Task → Task → Prop where
  | setAxis (value value' : Float32) : AgreeOff axis (.setAxis axis value) (.setAxis axis value')
  | play {play play' : Play} (h : play.AgreeOff axis play') :
      AgreeOff axis (.play play) (.play play')
  | same {task : Task} (h : task.isPlaying = true ∨ task.isRecording = true) :
      AgreeOff axis task task

def Succeeds (studio : Studio) : List Task → Prop
  | [] => True
  | task :: rest => (∀ e, ¬ studio.Raises task e) ∧ (studio.perform task).Succeeds rest

def root? (studio : Studio) : Task → Option Nat
  | .output id _ _ => some id
  | .play _ => studio.player.map (·.output)
  | _ => none

def repliesOf (studio : Studio) (id : Nat) : List Task → List Reply
  | [] => []
  | task :: rest =>
    if studio.root? task = some id then
      studio.reply task :: (studio.perform task).repliesOf id rest
    else
      (studio.perform task).repliesOf id rest

/--
Whether no node that an axis leads to is ever recorded to a file in the course of tasks.
-/
def Shields (axis : Int) (way : Way) (studio : Studio) (tasks : List Task) : Prop :=
  ∀ (earlier later : List Task) (id : Nat), tasks = earlier ++ later →
    (studio.performAll earlier).patch.rack.fileOf id = some way →
      studio.patch.rack.Free axis id

structure Level (axis : Int) (free : Nat → Prop) (spared : Way → Prop) (studio other : Studio) :
    Prop where
  player_eq : other.player = studio.player
  table_eq : other.patch.table = studio.patch.table
  controls : Controls.AgreeOff axis studio.controls other.controls
  rack : Rack.Level free spared studio.patch.rack other.patch.rack

variable {axis : Int} {free : Nat → Prop} {spared : Way → Prop} {studio other : Studio}
  {task task' : Task} {tasks tasks' : List Task} {id : Nat}

theorem rack_perform_of_isPlaying (h : task.isPlaying = true) :
    (studio.perform task).patch.rack = studio.patch.rack.outputs (studio.pulls task) := by
  cases task with
  | output id timestamp frames => rfl
  | setAxis axis value => rfl
  | play play =>
    cases hplayer : studio.player with
    | none =>
      rw [Alongside.perform_play_of_none hplayer]
      simp only [pulls, hplayer, Rack.outputs, List.foldl_nil]
    | some player =>
      rw [Alongside.perform_play_of_some hplayer]
      show (player.play studio.patch play).2.2.rack = _
      simp only [pulls, hplayer, Player.play_eq_advance, Player.rack_advance]
  | _ => cases h

theorem shape_perform (h : task.isPlaying = true ∨ task.isRecording = true) :
    (studio.perform task).patch.rack.shape = studio.patch.rack.shape := by
  obtain hplaying | hrecording := h
  · rw [rack_perform_of_isPlaying hplaying, Rack.shape_outputs]
  · have hsame := (Unheard.perform_of_isRecording studio hrecording).unrecorded_eq
    rw [← Rack.shape_unrecorded, hsame, Rack.shape_unrecorded]

theorem fileOf_performAll_of_isPlaying (h : ∀ task ∈ tasks, task.isPlaying = true) :
    (studio.performAll tasks).patch.rack.fileOf = studio.patch.rack.fileOf := by
  induction tasks generalizing studio with
  | nil => rfl
  | cons task rest ih =>
    have hfirst := h task (List.mem_cons_self ..)
    have hrest : ∀ other ∈ rest, other.isPlaying = true := fun other hmem =>
      h other (List.mem_cons_of_mem task hmem)
    exact (ih hrest).trans (by rw [rack_perform_of_isPlaying hfirst, Rack.fileOf_outputs])

theorem Asks.record_eq {path : String} {scaler : Float32}
    (h : studio.Asks task id path scaler) (hok : ∀ e, ¬ studio.Raises task e) :
    studio.patch.rack.record id path scaler = (.ok (), (studio.perform task).patch.rack) := by
  refine Prod.ext ?_ h.rack_perform.symm
  rw [← Patch.fst_recordNode]
  cases hresult : (studio.patch.recordNode id path scaler).1 with
  | ok _ => rfl
  | error e =>
    have hraises : studio.Raises task e := by
      obtain rfl | ⟨name, hname, rfl⟩ := h
      · exact hresult
      · simp only [Raises, Patch.record, hname, hresult]
    exact absurd hraises (hok e)

theorem Asks.perform_eq {path : String} {scaler : Float32}
    (h : studio.Asks task id path scaler) :
    (studio.perform task).player = studio.player ∧
      (studio.perform task).patch.table = studio.patch.table ∧
      (studio.perform task).controls = studio.controls := by
  have htable := studio.patch.table_recordNode id path scaler
  obtain rfl | ⟨name, hname, rfl⟩ := h
  · exact ⟨rfl, htable, rfl⟩
  · refine ⟨rfl, ?_, rfl⟩
    simp only [Studio.perform, Patch.record, hname, htable]

namespace Level

theorem asks (h : Level axis free spared studio other) {path : String} {scaler : Float32}
    (hasks : studio.Asks task id path scaler) : other.Asks task id path scaler := by
  unfold Asks at hasks ⊢
  rw [h.table_eq]
  exact hasks

theorem perform_play (h : Level axis free spared studio other)
    (hdeaf : Rack.Deaf axis free studio.patch.rack) {play play' : Play}
    (hplay : play.AgreeOff axis play') (hok : ∀ e, ¬ studio.Raises (.play play) e)
    (hok' : ∀ e, ¬ other.Raises (.play play') e) :
    Level axis free spared (studio.perform (.play play)) (other.perform (.play play')) ∧
      (∀ id, studio.root? (.play play) = some id → free id →
        other.reply (.play play') = studio.reply (.play play)) := by
  cases hplayer : studio.player with
  | none =>
    have hnone : other.player = none := by rw [h.player_eq, hplayer]
    rw [Alongside.perform_play_of_none hplayer, Alongside.perform_play_of_none hnone]
    exact ⟨h, fun id _ _ => by simp only [reply, hplayer, hnone]⟩
  | some player =>
    have hsome : other.player = some player := by rw [h.player_eq, hplayer]
    have hplayed : ∀ {studio : Studio} {play : Play}, studio.player = some player →
        (∀ e, ¬ studio.Raises (.play play) e) → (player.play studio.patch play).1 = .ok () := by
      intro studio play hplayer hok
      cases hresult : (player.play studio.patch play).1 with
      | error e => exact absurd ⟨player, hplayer, hresult⟩ (hok e)
      | ok _ => rfl
    have hrun := hplayed hplayer hok
    have hrun' := hplayed hsome hok'
    have hreply : free player.output → (player.reply other.patch play').1
        = (player.reply studio.patch play).1 := fun hfree =>
      Player.fst_reply_of_level h.rack hdeaf hfree hplay hrun hrun'
    rw [Player.play_eq_advance] at hrun hrun'
    obtain ⟨hnext, hlevel⟩ :=
      Player.level_advance h.rack hdeaf (Player.forall₂_calls hplay) hrun hrun'
    constructor
    · rw [Alongside.perform_play_of_some hplayer, Alongside.perform_play_of_some hsome,
        Player.play_eq_advance, Player.play_eq_advance]
      refine ⟨congrArg some hnext, ?_, h.controls, hlevel⟩
      show (player.advance other.patch play'.calls).2.2.table
        = (player.advance studio.patch play.calls).2.2.table
      rw [Player.table_advance, Player.table_advance, h.table_eq]
    · intro id hroot hfree
      have hid : player.output = id := by
        rw [root?, hplayer] at hroot
        exact Option.some.inj hroot
      subst hid
      simp only [reply, hplayer, hsome, hreply hfree]

theorem perform_record (h : Level axis free spared studio other) {path : String} {scaler : Float32}
    (hasks : studio.Asks task id path scaler) (hok : ∀ e, ¬ studio.Raises task e)
    (hok' : ∀ e, ¬ other.Raises task e)
    (hspared : ∀ {third : Nat} {way : Way}, spared way →
      (studio.perform task).patch.rack.fileOf third = some way → free third) :
    Level axis free spared (studio.perform task) (other.perform task) := by
  have hrecord := hasks.record_eq hok
  have hrecord' := (h.asks hasks).record_eq hok'
  obtain ⟨hplayer, htable, hcontrols⟩ := hasks.perform_eq
  obtain ⟨hplayer', htable', hcontrols'⟩ := (h.asks hasks).perform_eq
  refine ⟨?_, ?_, ?_, h.rack.record hrecord hrecord' hspared⟩
  · rw [hplayer, hplayer', h.player_eq]
  · rw [htable, htable', h.table_eq]
  · rw [hcontrols, hcontrols']
    exact h.controls

theorem perform (h : Level axis free spared studio other)
    (hdeaf : Rack.Deaf axis free studio.patch.rack) (htask : task.AgreeOff axis task')
    (hok : ∀ e, ¬ studio.Raises task e) (hok' : ∀ e, ¬ other.Raises task' e)
    (hspared : ∀ {third : Nat} {way : Way}, spared way →
      (studio.perform task).patch.rack.fileOf third = some way → free third) :
    Level axis free spared (studio.perform task) (other.perform task') ∧
      (∀ id, studio.root? task = some id → free id → other.reply task' = studio.reply task) := by
  have hnone : ∀ {task task' : Task}, studio.root? task = none →
      ∀ id, studio.root? task = some id → free id → other.reply task' = studio.reply task := by
    intro task task' hroot id hid
    rw [hroot] at hid
    cases hid
  cases htask with
  | setAxis value value' =>
    exact ⟨⟨h.player_eq, h.table_eq, h.controls.set axis fun hne => absurd rfl hne, h.rack⟩, hnone rfl⟩
  | play hplay => exact h.perform_play hdeaf hplay hok hok'
  | same hkind =>
    cases task with
    | output id timestamp frames =>
      have hrequest : Request.AgreeOff axis { timestamp, frames, controls := studio.controls }
          { timestamp, frames, controls := other.controls } := ⟨rfl, rfl, h.controls⟩
      have hblock : ∀ {studio : Studio}, (∀ e, ¬ studio.Raises (.output id timestamp frames) e) →
          ∃ block, (studio.patch.rack.output
            { timestamp, frames, controls := studio.controls } id).1 = .ok block := by
        intro studio hok
        cases hresult : (studio.patch.rack.output
            { timestamp, frames, controls := studio.controls } id).1 with
        | error e => exact absurd hresult (hok e)
        | ok block => exact ⟨block, rfl⟩
      obtain ⟨block, houtput⟩ := hblock hok
      obtain ⟨block', houtput'⟩ := hblock hok'
      obtain ⟨hlevel, hsame⟩ := h.rack.output hdeaf hrequest houtput houtput'
      refine ⟨⟨h.player_eq, h.table_eq, h.controls, hlevel⟩, ?_⟩
      rintro _ ⟨⟩ hfree
      refine congrArg Reply.block ?_
      rw [hsame hfree] at houtput'
      exact houtput'.trans houtput.symm
    | play play => exact h.perform_play hdeaf (.refl axis play) hok hok'
    | setAxis another value =>
      exact ⟨⟨h.player_eq, h.table_eq, h.controls.set another fun _ => rfl, h.rack⟩, hnone rfl⟩
    | record name path scaler =>
      cases hname : studio.patch.table.get? name with
      | none =>
        have hraises : studio.Raises (.record name path scaler) (.unknownInstance name) := by
          simp only [Raises, Patch.record, hname]
        exact absurd hraises (hok _)
      | some id =>
        have hasks : studio.Asks (.record name path scaler) id path scaler :=
          Or.inr ⟨name, hname, rfl⟩
        exact ⟨h.perform_record hasks hok hok' hspared, hnone rfl⟩
    | recordNode id path scaler =>
      exact ⟨h.perform_record (Or.inl rfl) hok hok' hspared, hnone rfl⟩
    | stop id => exact ⟨⟨h.player_eq, h.table_eq, h.controls, h.rack.stop id⟩, hnone rfl⟩
    | stopAll =>
      have hstopped : ∀ {studio : Studio}, (∀ e, ¬ studio.Raises .stopAll e) →
          studio.patch.stopAll.1 = .ok () := by
        intro studio hok
        cases hresult : studio.patch.stopAll.1 with
        | error e => exact absurd hresult (hok e)
        | ok _ => rfl
      have hids : other.patch.table.entries.map (·.2) = studio.patch.table.entries.map (·.2) := by
        rw [h.table_eq]
      have hstops : ∀ id ∈ studio.patch.table.entries.map (·.2), ∀ rack next : Rack,
          rack.shape = studio.patch.rack.shape → Rack.Level free spared rack next →
            (rack.stop id).1 = .ok () → (next.stop id).1 = .ok () →
              (rack.stop id).2.shape = studio.patch.rack.shape ∧
                Rack.Level free spared (rack.stop id).2 (next.stop id).2 :=
        fun id _ rack next hshape hlevel _ _ =>
          ⟨(Rack.shape_stop rack id).trans hshape, hlevel.stop id⟩
      have hrun' := hstopped hok'
      refine ⟨⟨h.player_eq, h.table_eq, h.controls, ?_⟩, hnone rfl⟩
      simp only [Patch.stopAll, hids] at hrun'
      simp only [Studio.perform, Patch.stopAll, hids]
      exact h.rack.forAll hstops rfl (hstopped hok) hrun'
    | _ => simp [Task.isPlaying, Task.isRecording] at hkind

end Level

theorem Task.AgreeOff.kind (h : task.AgreeOff axis task') :
    task.isPlaying = true ∨ task.isRecording = true := by
  cases h with
  | setAxis value value' => exact Or.inl rfl
  | play h => exact Or.inl rfl
  | same h => exact h

theorem Level.root?_eq (h : Level axis free spared studio other)
    (htask : task.AgreeOff axis task') : other.root? task' = studio.root? task := by
  cases htask with
  | setAxis value value' => rfl
  | play hplay => simp only [root?, h.player_eq]
  | same hkind => cases task <;> simp only [root?, h.player_eq]

theorem Level.refl (studio : Studio) (h : ∀ {id : Nat} {way : Way}, spared way →
      studio.patch.rack.fileOf id = some way → free id) : Level axis free spared studio studio :=
  ⟨rfl, rfl, fun _ _ => rfl, Rack.Level.refl h⟩

theorem shape_performAll (h : List.Forall₂ (Task.AgreeOff axis) tasks tasks') :
    (studio.performAll tasks).patch.rack.shape = studio.patch.rack.shape := by
  induction h generalizing studio with
  | nil => rfl
  | cons htask _ ih => exact ih.trans (shape_perform htask.kind)

theorem forall₂_append {more : List Task}
    (h : List.Forall₂ (Task.AgreeOff axis) (tasks ++ more) tasks') :
    ∃ first second, tasks' = first ++ second ∧ List.Forall₂ (Task.AgreeOff axis) tasks first ∧
      List.Forall₂ (Task.AgreeOff axis) more second :=
  ⟨tasks'.take tasks.length, tasks'.drop tasks.length, (List.take_append_drop ..).symm,
    (List.forall₂_take_append _ _ _ h.flip).flip, (List.forall₂_drop_append _ _ _ h.flip).flip⟩

theorem Level.performAll {base : Studio} (h : Level axis free spared studio other)
    (hshape : studio.patch.rack.shape = base.patch.rack.shape)
    (hdeaf : Rack.Deaf axis free base.patch.rack)
    (htasks : List.Forall₂ (Task.AgreeOff axis) tasks tasks')
    (hok : studio.Succeeds tasks) (hok' : other.Succeeds tasks')
    (hspared : ∀ (earlier later : List Task) (third : Nat) (way : Way),
      tasks = earlier ++ later → spared way →
        (studio.performAll earlier).patch.rack.fileOf third = some way → free third) :
    Level axis free spared (studio.performAll tasks) (other.performAll tasks') ∧
      ∀ id, free id → other.repliesOf id tasks' = studio.repliesOf id tasks := by
  induction htasks generalizing studio other with
  | nil => exact ⟨h, fun _ _ => rfl⟩
  | @cons task task' rest rest' htask hrest ih =>
    obtain ⟨hfirst, hlater⟩ := hok
    obtain ⟨hfirst', hlater'⟩ := hok'
    obtain ⟨hnext, hreply⟩ := h.perform (hdeaf.of_shape hshape) htask hfirst hfirst'
      fun {third way} hway hfile => hspared [task] rest third way rfl hway hfile
    obtain ⟨hlast, hreplies⟩ := ih hnext ((shape_perform htask.kind).trans hshape) hlater hlater'
      fun earlier later third way heq hway hfile =>
        hspared (task :: earlier) later third way (congrArg (task :: ·) heq) hway hfile
    refine ⟨hlast, ?_⟩
    intro id hfree
    rw [repliesOf, repliesOf, h.root?_eq htask, hreplies id hfree]
    split
    next hroot => rw [hreply id hroot hfree]
    next => rfl

theorem succeeds_append {more : List Task} :
    studio.Succeeds (tasks ++ more)
      ↔ studio.Succeeds tasks ∧ (studio.performAll tasks).Succeeds more := by
  induction tasks generalizing studio with
  | nil => simp [Succeeds, Studio.performAll]
  | cons task rest ih =>
    rw [List.cons_append, Succeeds, Succeeds, ih, and_assoc]
    rfl

theorem Level.lookup_of_starts (h : Level axis free spared studio other)
    (hdeaf : Rack.Deaf axis free studio.patch.rack) {path : String} {scaler : Float32}
    (hstarts : studio.Starts task id path scaler)
    (htasks : List.Forall₂ (Task.AgreeOff axis) (task :: tasks) (task' :: tasks'))
    (hok : studio.Succeeds (task :: tasks)) (hok' : other.Succeeds (task' :: tasks'))
    (hspared : ∀ (earlier later : List Task) (third : Nat), tasks = earlier ++ later →
      ((studio.perform task).performAll earlier).patch.rack.fileOf third = some (Path.way path) →
        free third) :
    (other.performAll (task' :: tasks')).patch.rack.files.contents.lookup (Path.way path)
      = (studio.performAll (task :: tasks)).patch.rack.files.contents.lookup (Path.way path) := by
  obtain ⟨htask, hrest⟩ := List.forall₂_cons.1 htasks
  obtain ⟨hfirst, hlater⟩ := hok
  obtain ⟨hfirst', hlater'⟩ := hok'
  have heq : task' = task := by
    have hasks := hstarts.asks
    cases htask with
    | same hkind => rfl
    | _ => obtain hasks | ⟨_, _, hasks⟩ := hasks <;> cases hasks
  subst heq
  have hnone : Level axis free (fun _ => False) studio other :=
    ⟨h.player_eq, h.table_eq, h.controls, h.rack.absent, h.rack.node, nofun, nofun⟩
  obtain ⟨hplayer, htable, hcontrols, hrack⟩ :=
    hnone.perform_record hstarts.asks hfirst hfirst' nofun
  have hlookup := h.rack.lookup_record hstarts.fileOf_eq (hstarts.asks.record_eq hfirst)
    ((h.asks hstarts.asks).record_eq hfirst')
  have hnext : Level axis free (fun way => way = Path.way path) (studio.perform task')
      (other.perform task') := by
    refine ⟨hplayer, htable, hcontrols, hrack.absent, hrack.node, ?_, ?_⟩
    · rintro way rfl
      exact hlookup
    · rintro third way rfl hfile
      exact hspared [] tasks third rfl hfile
  have hshape : (studio.perform task').patch.rack.shape = studio.patch.rack.shape :=
    shape_perform htask.kind
  refine ((hnext.performAll hshape hdeaf hrest hlater hlater' ?_).1.rack.lookup_eq _ rfl)
  rintro earlier later third way heq rfl hfile
  exact hspared earlier later third heq hfile

/--
The value of an axis is not to be noticed at a node that no input of the axis leads to: neither in
what its callers are told, nor in its state, the counters of its recorder included. Nor is it in a
file, unless a node that the axis leads to is recorded to the same one: what is recorded is the same
in both runs if it is only such nodes that are recorded to the file, at least from the start of a
recording on.
-/
theorem repliesOf_of_agreeOff (htasks : List.Forall₂ (Task.AgreeOff axis) tasks tasks')
    (hok : studio.Succeeds tasks) (hok' : studio.Succeeds tasks') :
    (∀ id, studio.patch.rack.Free axis id →
      studio.repliesOf id tasks' = studio.repliesOf id tasks ∧
      (studio.performAll tasks').patch.rack.nodes[id]?
        = (studio.performAll tasks).patch.rack.nodes[id]?) ∧
    (∀ way, studio.Shields axis way tasks →
      (studio.performAll tasks').patch.rack.files.contents.lookup way
        = (studio.performAll tasks).patch.rack.files.contents.lookup way) ∧
    ∀ {before after : List Task} {task : Task} {id : Nat} {path : String} {scaler : Float32},
      tasks = before ++ task :: after →
      (studio.performAll before).Starts task id path scaler →
      ((studio.performAll before).perform task).Shields axis (Path.way path) after →
        (studio.performAll tasks').patch.rack.files.contents.lookup (Path.way path)
          = (studio.performAll tasks).patch.rack.files.contents.lookup (Path.way path) := by
  have hdeaf := Rack.deaf_free axis studio.patch.rack
  have hnone : Level axis (studio.patch.rack.Free axis) (fun _ => False) studio studio :=
    Level.refl studio nofun
  refine ⟨?_, ?_, ?_⟩
  · intro id hfree
    obtain ⟨hlast, hreplies⟩ := hnone.performAll rfl hdeaf htasks hok hok' nofun
    refine ⟨hreplies id hfree, ?_⟩
    cases hnode : (studio.performAll tasks).patch.rack.nodes[id]? with
    | none => exact hlast.rack.absent hnode
    | some node =>
      obtain ⟨twin, htwin, -, hsame⟩ := hlast.rack.node hnode
      rw [htwin, hsame hfree]
  · intro way hshields
    have hstart : Level axis (studio.patch.rack.Free axis) (fun other => other = way)
        studio studio := by
      apply Level.refl
      rintro id _ rfl hfile
      exact hshields [] tasks id rfl hfile
    obtain ⟨hlast, -⟩ := hstart.performAll rfl hdeaf htasks hok hok' fun earlier later third _ heq
      hway hfile => hshields earlier later third heq (hway ▸ hfile)
    exact hlast.rack.lookup_eq way rfl
  · intro before after task id path scaler heq hstarts hshields
    subst heq
    obtain ⟨before', _, rfl, hbefore, hafter⟩ := forall₂_append htasks
    obtain ⟨task', after', htask, hrest, rfl⟩ := List.forall₂_cons_left_iff.1 hafter
    rw [succeeds_append] at hok hok'
    obtain ⟨hmid, -⟩ := hnone.performAll rfl hdeaf hbefore hok.1 hok'.1 nofun
    have hshape : (studio.performAll before).patch.rack.shape = studio.patch.rack.shape :=
      shape_performAll hbefore
    rw [performAll_append, performAll_append]
    apply hmid.lookup_of_starts (hdeaf.of_shape hshape) hstarts (.cons htask hrest) hok.2 hok'.2
    intro earlier later third hsplit hfile
    have hfree := hshields earlier later third hsplit hfile
    rwa [Rack.free_of_shape ((shape_perform htask.kind).trans hshape)] at hfree

def besideStudio : Studio :=
  (fresh {}).performAll [.build (.control 0), .build (.constant 0)]

def sharingStudio : Studio :=
  besideStudio.performAll [.recordNode 0 "x" 1, .recordNode 1 "x" 1]

def sparingStudio : Studio :=
  besideStudio.perform (.recordNode 1 "x" 1)

def pullBoth (value : Float32) : List Task :=
  [.setAxis 0 value, .output 1 0 1, .output 0 0 1]

theorem agreeOff_pullBoth (value value' : Float32) :
    List.Forall₂ (Task.AgreeOff 0) (pullBoth value) (pullBoth value') :=
  .cons (.setAxis value value') (.cons (.same (Or.inl rfl)) (.cons (.same (Or.inl rfl)) .nil))

theorem free_beside (hcontrol : studio.patch.rack.nodes[1]?.map (·.device) = some (.constant 0)) :
    studio.patch.rack.Free 0 1 := by
  intro id node hreaches hnode hdevice
  obtain ⟨constant, hconstant, heq⟩ := Option.map_eq_some_iff.1 hcontrol
  have hsteady : constant.device.Steady studio.controls 0 := by
    rw [heq]
    rfl
  rw [Rack.reaches_of_steady hconstant hsteady hreaches, hconstant] at hnode
  cases hnode
  rw [heq] at hdevice
  cases hdevice

theorem pullBoth_beside (h : studio.Reached) {recorder recorder' : Option Recorder}
    (hcontrol : studio.patch.rack.nodes[0]?
      = some { ({} : Rack).fresh (.control 0) with recorder })
    (hconstant : studio.patch.rack.nodes[1]?
      = some { ({} : Rack).fresh (.constant 0) with recorder := recorder' })
    (hfirst : ∀ found, recorder = some found → found.written = 0)
    (hsecond : ∀ found, recorder' = some found → found.written = 0) {value : Float32}
    (hvalue : (axisRange 0).clamp value = value)
    (hcontains : (axisRange 0).contains value = true) :
    studio.Succeeds (pullBoth value) ∧
      (studio.performAll (pullBoth value)).patch.rack.files =
        (recorder.elim (fun files => files)
            fun recorder files => (recorder.writeBlock #[value] files).2.2)
          ((recorder'.elim (fun files => files)
              fun recorder files => (recorder.writeBlock #[0] files).2.2)
            studio.patch.rack.files) := by
  set controls := studio.controls.set 0 value
  have hget : controls.get 0 = value := by
    rw [Controls.get_set, if_pos rfl, hvalue]
  have hzero : (Range.point 0).contains 0 = true := Rack.contains_shared.1
  have hroom : ∀ {recorder : Option Recorder},
      (∀ found, recorder = some found → found.written = 0) →
      ∀ found, recorder = some found → found.written + 1 * 1 ≤ Wav.maxSamples := by
    intro recorder hnew found hfound
    rw [hnew found hfound]
    decide
  have hwell := h.reachable.wellFormed
  obtain ⟨hblock, hfiles, hkept⟩ := Rack.output_of_steady hwell
    { timestamp := 0, frames := 1, controls } hconstant rfl rfl hzero (hroom hsecond)
  rw [← hkept 0 (by decide)] at hcontrol
  obtain ⟨hblock', hfiles', -⟩ := Rack.output_of_steady (hwell.output _ 1)
    { timestamp := 0, frames := 1, controls } hcontrol rfl hget hcontains
    (hroom hfirst)
  refine ⟨⟨nofun, ?_, ?_, trivial⟩, ?_⟩
  · intro e hraises
    cases hblock.symm.trans hraises
  · intro e hraises
    cases hblock'.symm.trans hraises
  · refine hfiles'.trans ?_
    rw [hfiles]
    cases recorder <;> cases recorder' <;> rfl

theorem rack_sharing : sharingStudio.patch.rack =
    { (besideStudio.patch.rack.update 0 fun node =>
          { node with recorder := some Rack.sharedRecorder }).update 1
        fun node => { node with recorder := some Rack.sharedRecorder } with
      files := Rack.sharedFiles } := by
  have hrecords : sharingStudio.patch.rack
      = ((besideStudio.patch.rack.record 0 "x" 1).2.record 1 "x" 1).2 := by
    show ((besideStudio.patch.recordNode 0 "x" 1).2.recordNode 1 "x" 1).2.rack = _
    rw [Patch.rack_recordNode, Patch.rack_recordNode]
  rw [hrecords]
  exact Rack.record_record_shared rfl rfl

theorem rack_sparing : sparingStudio.patch.rack =
    { besideStudio.patch.rack.update 1 fun node =>
        { node with recorder := some Rack.sharedRecorder } with
      files := Rack.sharedFiles } := by
  have hrecord : sparingStudio.patch.rack = (besideStudio.patch.rack.record 1 "x" 1).2 :=
    Patch.rack_recordNode _ 1 "x" 1
  have hnode : besideStudio.patch.rack.nodes[1]?
      = some ((({} : Rack).add (.control 0)).2.fresh (.constant 0)) := rfl
  have htarget : Files.target {} "x" = .ok ["x"] := by cbv
  rw [hrecord]
  exact Rack.record_shared hnode rfl rfl htarget rfl rfl

theorem reached_beside : besideStudio.Reached := by
  refine (reached_fresh {}).performAll ⟨?_, ?_, trivial⟩ <;> simp [Allows, Device.inputs]

theorem reached_sharing : sharingStudio.Reached :=
  reached_beside.performAll ⟨trivial, trivial, trivial⟩

theorem reached_sparing : sparingStudio.Reached :=
  reached_beside.perform _ trivial

theorem fits_pullBoth {value : Float32} (hvalue : value = 0 ∨ value = 1) :
    (axisRange 0).clamp value = value ∧ (axisRange 0).contains value = true := by
  obtain rfl | rfl := hvalue <;> decide +kernel

theorem pullBoth_sharing {value : Float32} (hvalue : value = 0 ∨ value = 1) :
    sharingStudio.Succeeds (pullBoth value) ∧
      (sharingStudio.performAll (pullBoth value)).patch.rack.files
        = (Rack.sharedRecorder.writeBlock #[value]
          (Rack.sharedRecorder.writeBlock #[0] Rack.sharedFiles).2.2).2.2 := by
  obtain ⟨hclamp, hcontains⟩ := fits_pullBoth hvalue
  have hcontrol : sharingStudio.patch.rack.nodes[0]?
      = some { ({} : Rack).fresh (.control 0) with recorder := some Rack.sharedRecorder } := by
    rw [rack_sharing]
    rfl
  have hconstant : sharingStudio.patch.rack.nodes[1]?
      = some { ({} : Rack).fresh (.constant 0) with recorder := some Rack.sharedRecorder } := by
    rw [rack_sharing]
    rfl
  have hfiles : sharingStudio.patch.rack.files = Rack.sharedFiles := by rw [rack_sharing]
  have hnew : ∀ found, some Rack.sharedRecorder = some found → found.written = 0 := by
    rintro found ⟨⟩
    rfl
  rw [← hfiles]
  exact pullBoth_beside reached_sharing hcontrol hconstant hnew hnew hclamp hcontains

theorem device_sharing :
    sharingStudio.patch.rack.nodes[1]?.map (·.device) = some (.constant 0) := by
  rw [rack_sharing]
  rfl

theorem pullBoth_sparing {value : Float32} (hvalue : value = 0 ∨ value = 1) :
    sparingStudio.Succeeds (pullBoth value) := by
  obtain ⟨hclamp, hcontains⟩ := fits_pullBoth hvalue
  have hcontrol : sparingStudio.patch.rack.nodes[0]?
      = some { ({} : Rack).fresh (.control 0) with recorder := none } := by
    rw [rack_sparing]
    rfl
  have hconstant : sparingStudio.patch.rack.nodes[1]?
      = some { ({} : Rack).fresh (.constant 0) with recorder := some Rack.sharedRecorder } := by
    rw [rack_sparing]
    rfl
  have hnew : ∀ found, some Rack.sharedRecorder = some found → found.written = 0 := by
    rintro found ⟨⟩
    rfl
  exact (pullBoth_beside reached_sparing hcontrol hconstant nofun hnew hclamp hcontains).1

theorem device_sparing :
    sparingStudio.patch.rack.nodes[1]?.map (·.device) = some (.constant 0) := by
  rw [rack_sparing]
  rfl

theorem shields_sparing (value : Float32) : sparingStudio.Shields 0 ["x"] (pullBoth value) := by
  intro earlier later id hsplit hfile
  have hkept : (sparingStudio.performAll earlier).patch.rack.fileOf id
      = sparingStudio.patch.rack.fileOf id := by
    rw [fileOf_performAll_of_isPlaying]
    intro task hmem
    have htask : task ∈ pullBoth value := by
      rw [hsplit]
      exact List.mem_append_left later hmem
    simp only [pullBoth, List.mem_cons, List.not_mem_nil, or_false] at htask
    obtain rfl | rfl | rfl := htask <;> rfl
  rw [hkept, rack_sparing] at hfile
  have hid : id = 1 := by
    match id with
    | 0 => cases hfile
    | 1 => rfl
    | id + 2 => cases hfile
  rw [hid]
  exact free_beside device_sparing

theorem repliesOf_of_agreeOff_sparing :
    List.Forall₂ (Task.AgreeOff 0) (pullBoth 0) (pullBoth 1) ∧
      sparingStudio.Succeeds (pullBoth 0) ∧ sparingStudio.Succeeds (pullBoth 1) ∧
      sparingStudio.repliesOf 1 (pullBoth 1) = sparingStudio.repliesOf 1 (pullBoth 0) ∧
      sparingStudio.patch.rack.fileOf 1 = some ["x"] ∧
      (sparingStudio.performAll (pullBoth 1)).patch.rack.files.contents.lookup ["x"]
        = (sparingStudio.performAll (pullBoth 0)).patch.rack.files.contents.lookup ["x"] := by
  have hagree := agreeOff_pullBoth 0 1
  have hzero := pullBoth_sparing (Or.inl rfl)
  have hone := pullBoth_sparing (Or.inr rfl)
  obtain ⟨hnodes, hfiles⟩ := repliesOf_of_agreeOff hagree hzero hone
  refine ⟨hagree, hzero, hone, (hnodes 1 (free_beside device_sparing)).1, ?_,
    hfiles.1 ["x"] (shields_sparing 0)⟩
  rw [rack_sparing]
  rfl

theorem lookup_pullBoth_sharing :
    List.Forall₂ (Task.AgreeOff 0) (pullBoth 0) (pullBoth 1) ∧
      sharingStudio.Reached ∧ sharingStudio.Succeeds (pullBoth 0) ∧
      sharingStudio.Succeeds (pullBoth 1) ∧
      sharingStudio.patch.rack.Free 0 1 ∧ sharingStudio.patch.rack.fileOf 1 = some ["x"] ∧
      (sharingStudio.performAll (pullBoth 1)).patch.rack.files.contents.lookup ["x"]
        ≠ (sharingStudio.performAll (pullBoth 0)).patch.rack.files.contents.lookup ["x"] := by
  obtain ⟨hzero, hzeroFiles⟩ := pullBoth_sharing (Or.inl rfl)
  obtain ⟨hone, honeFiles⟩ := pullBoth_sharing (Or.inr rfl)
  refine ⟨agreeOff_pullBoth 0 1, reached_sharing, hzero, hone, free_beside device_sharing, ?_, ?_⟩
  · rw [rack_sharing]
    rfl
  · rw [hzeroFiles, honeFiles]
    decide +kernel

end Studio
end PatchSynth
