import PatchSynth.Proofs.Rack.Atomic

/-!
This module contains where the error of a pull comes from: from one of the nodes that the pulled one
reaches, and from one stage of its evaluation. Each stage has its own kind of error.
-/

namespace PatchSynth

def Error.IsInputRange (e : Error) : Prop :=
  ∃ input inputRange consumer accepted, e = .invalidInputRange input inputRange consumer accepted

theorem Device.of_fill_eq_error {device : Device Feed} (hstandard : device.isCustom = false)
    {request : Request} {phase : Float32} {e : Error} (h : device.fill request phase = .error e) :
    e = .unorderedLimits "Rescaler" := by
  cases device with
  | rescaler input low high =>
    unfold fill rescale at h
    dsimp only at h
    split at h
    next => cases h
    next =>
      split at h
      next => cases h
      next =>
        cases h
        rfl
  | custom processor inputs => cases hstandard
  | _ => cases h

theorem Node.exists_of_check_eq_error {node : Node} {frames : Nat} {e : Error}
    (h : node.check frames = .error e) :
    ∃ value, e = .invalidOutputRange node.device.typeName node.range value := by
  unfold check at h
  split at h
  next value _ =>
    cases h
    exact ⟨value, rfl⟩
  next => cases h

theorem Node.exists_of_recorded_eq_error {node : Node} {frames : Nat} {e : Error}
    (h : (node.recorded frames).1 = .error e) :
    ∃ recorder cause, node.recorder = some recorder ∧
      (recorder.take (node.block frames)).1 = .error cause ∧ e = .file cause := by
  unfold recorded at h
  cases hrecorder : node.recorder with
  | none =>
    rw [hrecorder] at h
    cases h
  | some recorder =>
    rw [hrecorder] at h
    dsimp only at h
    cases htake : (recorder.take (node.block frames)).1 with
    | ok _ =>
      rw [htake] at h
      cases h
    | error cause =>
      rw [htake] at h
      cases h
      exact ⟨recorder, cause, rfl, htake, rfl⟩

namespace Rack

theorem isInputRange_of_checkDemands {rack : Rack} {device : Device Nat} {e : Error}
    (h : rack.checkDemands device = .error e) : e.IsInputRange := by
  unfold checkDemands at h
  generalize device.demands = demands at h
  induction demands with
  | nil => cases h
  | cons demand rest ih =>
    simp only [List.forM] at h
    split at h
    next => exact ih h
    next =>
      cases h
      exact ⟨_, _, _, _, rfl⟩

inductive Raised (request : Request) (rack : Rack) (id : Nat) : Error → Prop where
  | unwired : Raised request rack id (.unwired id)
  | demands {node : Node} {e : Error} (hnode : rack.nodes[id]? = some node)
      (herror : rack.checkDemands node.device = .error e) : Raised request rack id e
  | fill {node : Node} {feed : Nat → Feed} {e : Error} (hnode : rack.nodes[id]? = some node)
      (herror : (node.device.map feed).fill request node.phase = .error e) :
      Raised request rack id e
  | record {node : Node} {feed : Nat → Feed} {result : Fill} {e : Error}
      (hnode : rack.nodes[id]? = some node)
      (hfill : (node.device.map feed).fill request node.phase = .ok result)
      (herror : ((node.touch.store request.timestamp result).recorded request.frames).1
        = .error e) :
      Raised request rack id e
  | check {node : Node} {result : Fill} {e : Error} (hnode : rack.nodes[id]? = some node)
      (herror : (node.store request.timestamp result).check request.frames = .error e) :
      Raised request rack id e

variable {request : Request} {rack : Rack} {id root : Nat} {node : Node} {e : Error}

theorem error_of_bind {α β ε : Type} {first : Except ε α} {rest : α → Except ε β} {e : ε}
    (h : first >>= rest = .error e) :
    first = .error e ∨ ∃ value, first = .ok value ∧ rest value = .error e := by
  cases first with
  | error found =>
    cases h
    exact Or.inl rfl
  | ok value => exact Or.inr ⟨value, rfl, h⟩

theorem mem_of_firstError {α : Type} {results : List (Except Error α)}
    (h : firstError results = .error e) : .error e ∈ results := by
  induction results with
  | nil => cases h
  | cons result rest ih =>
    cases result with
    | ok value => exact List.mem_cons_of_mem _ (ih h)
    | error found =>
      cases h
      exact List.mem_cons_self

theorem raised_of_evaluated (hnode : rack.nodes[id]? = some node)
    {pull : Nat → Except Error Node} (herror : rack.evaluated request pull node = .error e) :
    Raised request rack id e ∨ ∃ input ∈ node.device.reads, pull input = .error e := by
  unfold evaluated at herror
  obtain hdemands | ⟨-, -, herror⟩ := error_of_bind herror
  · exact Or.inl (Raised.demands hnode hdemands)
  obtain hreads | ⟨-, -, herror⟩ := error_of_bind herror
  · exact Or.inr (List.mem_map.1 (mem_of_firstError hreads))
  obtain hfill | ⟨result, hfill, herror⟩ := error_of_bind herror
  · exact Or.inl (Raised.fill hnode hfill)
  obtain hrecorded | ⟨-, -, herror⟩ := error_of_bind herror
  · exact Or.inl (Raised.record hnode hfill hrecorded)
  obtain hcheck | ⟨-, -, herror⟩ := error_of_bind herror
  · exact Or.inl (Raised.check hnode hcheck)
  · cases herror

theorem exists_raised_of_pulled (herror : rack.pulled request id = .error e) :
    ∃ other, rack.Reaches id other ∧ Raised request rack other e := by
  -- A node reads nodes with smaller indices only, so that the reads end.
  induction id using Nat.strongRecOn with
  | ind id ih =>
    rw [pulled_eq] at herror
    split at herror
    next =>
      cases herror
      exact ⟨id, Reaches.refl rack id, Raised.unwired⟩
    next node hnode =>
      split at herror
      next =>
        obtain hraised | ⟨input, hmem, hinput⟩ := raised_of_evaluated hnode herror
        · exact ⟨id, Reaches.refl rack id, hraised⟩
        · have hreads : rack.Reads id input := ⟨node, hnode, hmem⟩
          unfold pulledBelow at hinput
          split at hinput
          next hlt =>
            obtain ⟨other, hreaches, hraised⟩ := ih input hlt hinput
            exact ⟨other, hreaches.head hreads, hraised⟩
          next =>
            cases hinput
            exact ⟨input, (Reaches.refl rack id).tail hreads, Raised.unwired⟩
      next => cases herror

theorem exists_raised_of_output (herror : (rack.output request root).1 = .error e) :
    ∃ other, rack.Reaches root other ∧ Raised request.clamped rack other e := by
  rw [fst_output_eq_pulled] at herror
  cases hpulled : rack.pulled request.clamped root with
  | error found =>
    rw [hpulled] at herror
    cases herror
    exact exists_raised_of_pulled hpulled
  | ok value =>
    rw [hpulled] at herror
    cases herror

end Rack
end PatchSynth
