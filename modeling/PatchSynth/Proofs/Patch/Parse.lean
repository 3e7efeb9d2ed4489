import PatchSynth.Catalog
import PatchSynth.Patch.Parser
import PatchSynth.Proofs.Patch.Number
import PatchSynth.Proofs.Range
import PatchSynth.Proofs.Signal.Rack
import PatchSynth.Proofs.Table

/-!
This module contains what a text of standard types makes of a patch: nodes that are well-formed,
that have inputs with the channels that they expect and limits that have an order, and that nobody
has played or recorded yet.
-/

namespace PatchSynth

namespace Rack

def Extends (rack next : Rack) : Prop :=
  ∀ (id : Nat) (node : Node), rack.nodes[id]? = some node → next.nodes[id]? = some node

variable {rack next last : Rack}

theorem Extends.refl (rack : Rack) : rack.Extends rack :=
  fun _ _ hnode => hnode

theorem Extends.trans (h : rack.Extends next) (hlast : next.Extends last) : rack.Extends last :=
  fun id node hnode => hlast id node (h id node hnode)

theorem extends_add (rack : Rack) (device : Device Nat) : rack.Extends (rack.add device).2 := by
  intro id node hnode
  obtain ⟨hlt, -⟩ := Array.getElem?_eq_some_iff.1 hnode
  rw [getElem?_add_of_lt rack device hlt]
  exact hnode

def Offers (rack : Rack) (id channels : Nat) : Prop :=
  id < rack.nodes.size ∧ rack.channelsOf id = channels

theorem Offers.mono {id channels : Nat} (h : rack.Offers id channels) (hext : rack.Extends next) :
    next.Offers id channels := by
  obtain ⟨hlt, hchannels⟩ := h
  have hnode : rack.nodes[id]? = some rack.nodes[id] := Array.getElem?_eq_getElem hlt
  have hnext := hext id _ hnode
  obtain ⟨hlt', -⟩ := Array.getElem?_eq_some_iff.1 hnext
  refine ⟨hlt', ?_⟩
  rw [← hchannels, channelsOf, channelsOf, hnext, hnode]

theorem offers_of_isStereo {id : Nat} (h : id < rack.nodes.size) (stereo : Bool)
    (hstereo : rack.isStereo id = stereo) : rack.Offers id (if stereo then 2 else 1) := by
  have hnode : rack.nodes[id]? = some rack.nodes[id] := Array.getElem?_eq_getElem h
  refine ⟨h, ?_⟩
  rw [isStereo, hnode] at hstereo
  rw [channelsOf, hnode]
  dsimp only at hstereo ⊢
  rw [Device.channels, hstereo]

end Rack

def ParamValue.Fits (rack : Rack) : ParamValue → Prop
  | .float value => Single.isNaN value = false
  | .int _ => True
  | .mono id => rack.Offers id 1
  | .stereo id => rack.Offers id 2

theorem ParamValue.Fits.mono {rack next : Rack} {value : ParamValue} (h : value.Fits rack)
    (hext : rack.Extends next) : value.Fits next := by
  cases value with
  | float value => exact h
  | int value => trivial
  | mono id => exact Rack.Offers.mono h hext
  | stereo id => exact Rack.Offers.mono h hext

structure Device.Wired (rack : Rack) (device : Device Nat) : Prop where
  standard : device.isCustom = false
  inputs : ∀ input ∈ device.inputs, rack.Offers input device.inputChannels

structure Device.Made (rack : Rack) (device : Device Nat) : Prop
    extends Device.Wired rack device where
  ordered : device.isOrdered = true

/--
Whether a type makes standard devices only, and wires them to what it was given.
-/
def Descriptor.Standard (descriptor : Descriptor) : Prop :=
  ∀ (rack : Rack) (values : List ParamValue) (device : Device Nat),
    (∀ value ∈ values, value.Fits rack) → descriptor.factory { values } = .ok device →
      device.Made rack

namespace Params

variable {params : Params} {rack : Rack} {index id : Nat}

theorem isNaN_of_float {number : Float32} (hfits : ∀ value ∈ params.values, value.Fits rack)
    (h : params.float index = .ok number) : Single.isNaN number = false := by
  unfold float at h
  split at h
  next value hvalue =>
    cases h
    exact hfits _ (List.mem_of_getElem? hvalue)
  next => cases h

theorem offers_of_mono (hfits : ∀ value ∈ params.values, value.Fits rack)
    (h : params.mono index = .ok id) : rack.Offers id 1 := by
  unfold mono at h
  split at h
  next value hvalue =>
    cases h
    exact hfits _ (List.mem_of_getElem? hvalue)
  next => cases h

theorem offers_of_stereo (hfits : ∀ value ∈ params.values, value.Fits rack)
    (h : params.stereo index = .ok id) : rack.Offers id 2 := by
  unfold stereo at h
  split at h
  next value hvalue =>
    cases h
    exact hfits _ (List.mem_of_getElem? hvalue)
  next => cases h

end Params

theorem exists_ok_of_bind {α β ε : Type} {first : Except ε α} {rest : α → Except ε β} {result : β}
    (h : first >>= rest = .ok result) : ∃ value, first = .ok value ∧ rest value = .ok result := by
  cases first with
  | error e => cases h
  | ok value => exact ⟨value, rfl, h⟩

namespace Catalog

theorem standard_constant : constant.Standard := by
  intro rack values device hfits h
  obtain ⟨value, -, h⟩ := exists_ok_of_bind h
  cases h
  exact ⟨⟨rfl, List.forall_mem_nil _⟩, rfl⟩

theorem standard_input : input.Standard := by
  intro rack values device hfits h
  obtain ⟨axis, -, h⟩ := exists_ok_of_bind h
  cases h
  exact ⟨⟨rfl, List.forall_mem_nil _⟩, rfl⟩

theorem standard_oscillator (waveform : Waveform) : (oscillator waveform).Standard := by
  intro rack values device hfits h
  obtain ⟨frequency, hfrequency, h⟩ := exists_ok_of_bind h
  cases h
  exact ⟨⟨rfl, List.forall_mem_singleton.2 (Params.offers_of_mono hfits hfrequency)⟩, rfl⟩

theorem standard_of_pair {descriptor : Descriptor} {pull : Params → Nat → Except Error Nat}
    {make : Nat → Nat → Device Nat} {channels : Nat}
    (hfactory : ∀ params, descriptor.factory params
      = do return make (← pull params 0) (← pull params 1))
    (hmake : ∀ a b, (make a b).isCustom = false ∧ (make a b).inputs = [a, b] ∧
      (make a b).inputChannels = channels ∧ (make a b).isOrdered = true)
    (hpull : ∀ {params : Params} {rack : Rack} {index id : Nat},
      (∀ value ∈ params.values, value.Fits rack) → pull params index = .ok id →
        rack.Offers id channels) :
    descriptor.Standard := by
  intro rack values device hfits h
  rw [hfactory] at h
  obtain ⟨a, ha, h⟩ := exists_ok_of_bind h
  obtain ⟨b, hb, h⟩ := exists_ok_of_bind h
  cases h
  obtain ⟨hstandard, hinputs, hchannels, hordered⟩ := hmake a b
  refine ⟨⟨hstandard, ?_⟩, hordered⟩
  rw [hinputs, hchannels]
  exact List.forall_mem_cons.2 ⟨hpull hfits ha, List.forall_mem_singleton.2 (hpull hfits hb)⟩

theorem standard_add : add.Standard :=
  standard_of_pair (fun _ => rfl) (fun _ _ => ⟨rfl, rfl, rfl, rfl⟩) Params.offers_of_mono

theorem standard_multiply : multiply.Standard :=
  standard_of_pair (fun _ => rfl) (fun _ _ => ⟨rfl, rfl, rfl, rfl⟩) Params.offers_of_mono

theorem standard_pan : pan.Standard :=
  standard_of_pair (fun _ => rfl) (fun _ _ => ⟨rfl, rfl, rfl, rfl⟩) Params.offers_of_mono

theorem standard_stereoAdd : stereoAdd.Standard :=
  standard_of_pair (fun _ => rfl) (fun _ _ => ⟨rfl, rfl, rfl, rfl⟩) Params.offers_of_stereo

theorem standard_rescaler : rescaler.Standard := by
  intro rack values device hfits h
  obtain ⟨source, hsource, h⟩ := exists_ok_of_bind h
  obtain ⟨low, hlow, h⟩ := exists_ok_of_bind h
  obtain ⟨high, hhigh, h⟩ := exists_ok_of_bind h
  cases h
  refine ⟨⟨rfl, List.forall_mem_singleton.2 (Params.offers_of_mono hfits hsource)⟩, ?_⟩
  exact Range.isOrdered_between (Params.isNaN_of_float hfits hlow)
    (Params.isNaN_of_float hfits hhigh)

end Catalog

namespace Registry

theorem mem_register {registry : Registry} {descriptor other : Descriptor}
    (h : other ∈ (registry.register descriptor).descriptors) :
    other ∈ registry.descriptors ∨ other = descriptor := by
  rw [register, List.mem_append, List.mem_filter, List.mem_singleton] at h
  obtain ⟨hmem, -⟩ | hmem := h
  · exact Or.inl hmem
  · exact Or.inr hmem

theorem mem_ofList {descriptors : List Descriptor} {descriptor : Descriptor}
    (h : descriptor ∈ (ofList descriptors).descriptors) : descriptor ∈ descriptors := by
  -- The registry that the fold starts with grows from step to step.
  have hfold : ∀ (rest : List Descriptor) (registry : Registry),
      descriptor ∈ (rest.foldl register registry).descriptors →
        descriptor ∈ registry.descriptors ∨ descriptor ∈ rest := by
    intro rest
    induction rest with
    | nil => exact fun registry hmem => Or.inl hmem
    | cons first rest ih =>
      intro registry hmem
      rw [List.mem_cons]
      obtain hmem | hmem := ih _ hmem
      · obtain hmem | hmem := mem_register hmem
        · exact Or.inl hmem
        · exact Or.inr (Or.inl hmem)
      · exact Or.inr (Or.inr hmem)
  obtain hmem | hmem := hfold descriptors {} h
  · cases hmem
  · exact hmem

theorem standard_get? {typeName : String} {descriptor : Descriptor}
    (h : standard.get? typeName = some descriptor) : descriptor.Standard := by
  have hmem := mem_ofList (List.mem_of_find?_eq_some h)
  simp only [List.mem_cons, List.not_mem_nil, or_false] at hmem
  obtain rfl | rfl | rfl | rfl | rfl | rfl | rfl | rfl | rfl | rfl := hmem
  · exact Catalog.standard_constant
  · exact Catalog.standard_oscillator _
  · exact Catalog.standard_oscillator _
  · exact Catalog.standard_oscillator _
  · exact Catalog.standard_add
  · exact Catalog.standard_multiply
  · exact Catalog.standard_rescaler
  · exact Catalog.standard_pan
  · exact Catalog.standard_stereoAdd
  · exact Catalog.standard_input

end Registry

namespace Patch

def Named (patch : Patch) : Prop :=
  ∀ (name : String) (id : Nat), patch.table.get? name = some id → id < patch.rack.nodes.size

structure Grows (P : Patch → Prop) : Prop where
  named : ∀ {patch : Patch}, P patch → patch.Named
  build : ∀ {patch : Patch} {device : Device Nat}, P patch → device.Made patch.rack →
    P (patch.build device).2
  insert : ∀ {patch : Patch} (name : String) {id : Nat}, P patch → id < patch.rack.nodes.size →
    P (patch.insert name id)
  insertAnonymous : ∀ {patch : Patch} (id : Nat), P patch → P (patch.insertAnonymous id)
  note : ∀ {patch : Patch} (event : Event), P patch → P (patch.note event)

variable {patch next : Patch} {registry : Registry}

theorem rack_insert (patch : Patch) (name : String) (id : Nat) :
    (patch.insert name id).rack = patch.rack := by
  unfold Patch.insert
  dsimp only
  split <;> rfl

theorem table_insert (patch : Patch) (name : String) (id : Nat) :
    (patch.insert name id).table = (patch.table.insert name id).2 :=
  rfl

theorem Named.build (h : patch.Named) (device : Device Nat) : (patch.build device).2.Named := by
  intro name id hid
  have hlt := h name id hid
  have hsize := Rack.size_nodes_add patch.rack device
  rw [Patch.build]
  dsimp only
  omega

theorem Named.insert (h : patch.Named) (name : String) {id : Nat}
    (hid : id < patch.rack.nodes.size) : (patch.insert name id).Named := by
  intro other found hfound
  rw [rack_insert]
  rw [table_insert, Table.get?_insert] at hfound
  split at hfound
  next =>
    cases hfound
    exact hid
  next => exact h other found hfound

theorem made_constant (rack : Rack) (value : Float32) : (Device.constant value).Made rack :=
  ⟨⟨rfl, List.forall_mem_nil _⟩, rfl⟩

theorem extends_bind (patch : Patch) (kind : ParamKind) (token : List Char) :
    patch.rack.Extends (patch.bind kind token).2.rack := by
  cases kind with
  | mono =>
    simp only [Patch.bind]
    split
    next =>
      split
      next => exact Rack.extends_add patch.rack _
      next => exact Rack.Extends.refl _
    next => exact Rack.Extends.refl _
  | string => exact Rack.Extends.refl _
  | _ =>
    simp only [Patch.bind]
    split <;> exact Rack.Extends.refl _

theorem Named.offers_of_resolve (h : patch.Named) {token : List Char} {stereo : Bool} {id : Nat}
    (hresolve : patch.resolve token stereo = .ok id) :
    patch.rack.Offers id (if stereo then 2 else 1) := by
  unfold resolve at hresolve
  split at hresolve
  next => cases hresolve
  next found hfound =>
    split at hresolve
    next hstereo =>
      cases hresolve
      exact Rack.offers_of_isStereo (h _ _ hfound) stereo hstereo
    next => cases hresolve

theorem Named.fits_of_resolve (h : patch.Named) {token : List Char} {stereo : Bool}
    {wrap : Nat → ParamValue} {value : ParamValue}
    (hwrap : ∀ id, patch.rack.Offers id (if stereo then 2 else 1) → (wrap id).Fits patch.rack)
    (hvalue : (patch.resolve token stereo).map wrap = .ok value) : value.Fits patch.rack := by
  cases hresolve : patch.resolve token stereo with
  | error e =>
    rw [hresolve] at hvalue
    cases hvalue
  | ok id =>
    rw [hresolve] at hvalue
    cases hvalue
    exact hwrap id (h.offers_of_resolve hresolve)

theorem Named.fits_of_bind (h : patch.Named) {kind : ParamKind} {token : List Char}
    {value : ParamValue} (hvalue : (patch.bind kind token).1 = .ok value) :
    value.Fits (patch.bind kind token).2.rack := by
  have hmono : ∀ id, patch.rack.Offers id (if false then 2 else 1) →
      (ParamValue.mono id).Fits patch.rack := fun id hoffers => hoffers
  have hstereo : ∀ id, patch.rack.Offers id (if true then 2 else 1) →
      (ParamValue.stereo id).Fits patch.rack := fun id hoffers => hoffers
  cases kind with
  | float =>
    simp only [Patch.bind] at hvalue
    split at hvalue
    next number hnumber =>
      cases hvalue
      exact isNaN_of_numberOfToken hnumber
    next => cases hvalue
  | int =>
    simp only [Patch.bind] at hvalue
    split at hvalue
    next =>
      cases hvalue
      trivial
    next => cases hvalue
  | mono =>
    simp only [Patch.bind] at hvalue ⊢
    split at hvalue
    next hdigit =>
      rw [if_pos hdigit]
      split at hvalue
      next number hnumber =>
        cases hvalue
        refine ⟨by simp [Patch.build, Patch.insertAnonymous, Rack.add], ?_⟩
        have hnode := Rack.getElem?_add_size patch.rack (.constant number)
        have hchannels : (patch.rack.add (.constant number)).2.channelsOf patch.rack.nodes.size
            = 1 := by
          rw [Rack.channelsOf, hnode]
          rfl
        exact hchannels
      next => cases hvalue
    next hname =>
      rw [if_neg hname]
      exact h.fits_of_resolve hmono hvalue
  | stereo =>
    simp only [Patch.bind] at hvalue ⊢
    split at hvalue
    next hname =>
      rw [if_pos hname]
      exact h.fits_of_resolve hstereo hvalue
    next => cases hvalue
  | string => cases hvalue

namespace Grows

variable {P : Patch → Prop}

theorem bind (hP : Grows P) (h : P patch) (kind : ParamKind) (token : List Char) :
    P (patch.bind kind token).2 := by
  cases kind with
  | mono =>
    simp only [Patch.bind]
    split
    next =>
      split
      next value _ =>
        have hbuilt := hP.build h (made_constant patch.rack value)
        exact hP.insertAnonymous _ hbuilt
      next => exact h
    next => exact h
  | string => exact h
  | _ =>
    simp only [Patch.bind]
    split <;> exact h

theorem bindAll (hP : Grows P) (h : P patch) (last : List Char) (params : List ParamSpec)
    (tokens : List (List Char)) :
    P (patch.bindAll last params tokens).2 ∧
      patch.rack.Extends (patch.bindAll last params tokens).2.rack ∧
      ∀ values, (patch.bindAll last params tokens).1 = .ok values →
        ∀ value ∈ values, value.Fits (patch.bindAll last params tokens).2.rack := by
  induction params generalizing patch last tokens with
  | nil =>
    cases tokens with
    | nil =>
      refine ⟨h, Rack.Extends.refl _, ?_⟩
      intro values hvalues
      cases hvalues
      exact List.forall_mem_nil _
    | cons token tokens =>
      refine ⟨h, Rack.Extends.refl _, ?_⟩
      intro values hvalues
      cases hvalues
  | cons param params ih =>
    cases tokens with
    | nil =>
      refine ⟨h, Rack.Extends.refl _, ?_⟩
      intro values hvalues
      cases hvalues
    | cons token tokens =>
      have hbound := hP.bind h param.kind token
      have hext := patch.extends_bind param.kind token
      have hfits : ∀ value, (patch.bind param.kind token).1 = .ok value →
          value.Fits (patch.bind param.kind token).2.rack := fun value hvalue =>
        (hP.named h).fits_of_bind hvalue
      rw [Patch.bindAll]
      cases hbind : patch.bind param.kind token with
      | mk result next =>
        rw [hbind] at hbound hext hfits
        obtain ⟨hbound', hext', hfits'⟩ := ih hbound token tokens
        cases result with
        | error fault =>
          refine ⟨hbound, hext, ?_⟩
          intro values hvalues
          cases hvalues
        | ok value =>
          dsimp only
          cases hrest : next.bindAll token params tokens with
          | mk result last =>
            rw [hrest] at hbound' hext' hfits'
            cases result with
            | error refusal =>
              refine ⟨hbound', hext.trans hext', ?_⟩
              intro values hvalues
              cases hvalues
            | ok rest =>
              -- The first value still fits, because binding the others only adds nodes.
              refine ⟨hbound', hext.trans hext', ?_⟩
              intro values hvalues
              cases hvalues
              rw [List.forall_mem_cons]
              exact ⟨(hfits value rfl).mono hext', hfits' rest rfl⟩

theorem define (hP : Grows P) (h : P patch) (lineNumber : Nat) (tokens : List (List Char)) :
    P (patch.define Registry.standard lineNumber tokens).2 := by
  unfold Patch.define
  dsimp only
  split
  next => exact h
  next descriptor hdescriptor =>
    split
    next => exact h
    next name tokens _ =>
      obtain ⟨hbound, -, hfits⟩ := hP.bindAll h name descriptor.params tokens
      split
      next hbind =>
        rw [hbind] at hbound
        exact hbound
      next values bound hbind =>
        rw [hbind] at hbound hfits
        split
        next => exact hbound
        next device hdevice =>
          have hstandard := Registry.standard_get? hdescriptor
          have hmade := hstandard bound.rack values device (hfits values rfl) hdevice
          have hlt : (bound.build device).1 < (bound.build device).2.rack.nodes.size := by
            simp [Patch.build, Rack.add]
          exact hP.insert _ (hP.note _ (hP.build hbound hmade)) hlt

theorem addLine {parser : Parser} (hP : Grows P) (h : P parser.patch) (line : List Char) :
    P (parser.addLine Registry.standard line).2.patch := by
  unfold Parser.addLine
  dsimp only
  split
  next => exact h
  next =>
    have hdefine := hP.define h (parser.lineNumber + 1) (tokens line)
    split
    next hresult =>
      rw [hresult] at hdefine
      exact hdefine
    next hresult =>
      rw [hresult] at hdefine
      exact hdefine

theorem addLines {parser : Parser} (hP : Grows P) (h : P parser.patch) (lines : List (List Char)) :
    P (parser.addLines Registry.standard lines).2.patch := by
  induction lines generalizing parser with
  | nil => exact h
  | cons line rest ih =>
    have hline := hP.addLine h line
    rw [Parser.addLines]
    split
    next hresult =>
      rw [hresult] at hline
      exact hline
    next hresult =>
      rw [hresult] at hline
      exact ih hline

theorem parse (hP : Grows P) (h : P patch) (text : String) :
    P (patch.parse Registry.standard text).2 :=
  hP.addLines h (lines text.toList)

end Grows

structure Built (patch : Patch) : Prop where
  reachable : patch.rack.Reachable
  unplayed : patch.rack.Unplayed
  wellTyped : patch.rack.WellTyped
  unrecorded : ∀ (id : Nat) (node : Node), patch.rack.nodes[id]? = some node →
    node.recorder = none
  named : ∀ (name : String) (id : Nat), patch.table.get? name = some id →
    id < patch.rack.nodes.size

theorem Built.empty (files : Files) : Built { rack := { files } } := by
  refine ⟨Rack.Reachable.empty files, Rack.Unplayed.empty files, ?_, ?_, ?_⟩
  · intro id node hnode
    simp at hnode
  · intro id node hnode
    simp at hnode
  · intro name id hid
    cases hid

theorem Built.of_eq (h : patch.Built) (hrack : next.rack = patch.rack)
    (hnamed : ∀ name id, next.table.get? name = some id → id < patch.rack.nodes.size) :
    next.Built := by
  refine ⟨?_, ?_, ?_, ?_, ?_⟩
  · rw [hrack]
    exact h.reachable
  · rw [hrack]
    exact h.unplayed
  · rw [hrack]
    exact h.wellTyped
  · rw [hrack]
    exact h.unrecorded
  · rw [hrack]
    exact hnamed

theorem Built.hasRoom (h : patch.Built) (frames : Nat) : patch.rack.HasRoom frames := by
  intro id node recorder hnode hrecorder
  rw [h.unrecorded id node hnode] at hrecorder
  cases hrecorder

theorem Built.build (h : patch.Built) {device : Device Nat} (hwired : device.Wired patch.rack) :
    (patch.build device).2.Built := by
  have hext : patch.rack.Extends (patch.build device).2.rack := Rack.extends_add patch.rack device
  refine ⟨?_, ?_, ?_, ?_, ?_⟩
  · apply h.reachable.add
    intro input hmem
    exact (hwired.inputs input hmem).1
  · exact h.unplayed.add device
  · intro id node hnode
    obtain ⟨hlt, hnode⟩ | ⟨-, rfl⟩ := Rack.nodes_add_cases hnode
    · obtain ⟨hstandard, hchannels⟩ := h.wellTyped id node hnode
      refine ⟨hstandard, ?_⟩
      intro input hmem
      have hinput := h.reachable.wellFormed.inputs_lt hnode input hmem
      have hoffers : patch.rack.Offers input node.device.inputChannels :=
        ⟨by omega, hchannels input hmem⟩
      exact (hoffers.mono hext).2
    · refine ⟨hwired.standard, ?_⟩
      intro input hmem
      exact ((hwired.inputs input hmem).mono hext).2
  · intro id node hnode
    obtain ⟨-, hnode⟩ | ⟨-, rfl⟩ := Rack.nodes_add_cases hnode
    · exact h.unrecorded id node hnode
    · rfl
  · intro name id hid
    have hlt := h.named name id hid
    have hsize := Rack.size_nodes_add patch.rack device
    rw [Patch.build]
    dsimp only
    omega

theorem grows_built : Grows Built := by
  refine ⟨fun h => h.named, fun h hmade => h.build hmade.toWired, ?_, ?_, ?_⟩
  · intro patch name id h hid
    apply h.of_eq (rack_insert patch name id)
    rw [← rack_insert patch name id]
    exact Named.insert h.named name hid
  · intro patch id h
    exact h.of_eq rfl h.named
  · intro patch event h
    exact h.of_eq rfl h.named

theorem Built.parse (h : patch.Built) (text : String) :
    (patch.parse Registry.standard text).2.Built :=
  grows_built.parse h text

def withFiles (patch : Patch) (files : Files) : Patch :=
  { patch with rack := { patch.rack with files } }

theorem resolve_withFiles (files : Files) (token : List Char) (stereo : Bool) :
    (patch.withFiles files).resolve token stereo = patch.resolve token stereo := rfl

theorem bind_withFiles (files : Files) (kind : ParamKind) (token : List Char) :
    (patch.withFiles files).bind kind token
      = ((patch.bind kind token).1, (patch.bind kind token).2.withFiles files) := by
  cases kind with
  | string => rfl
  | mono =>
    simp only [Patch.bind, resolve_withFiles]
    split
    next => cases numberOfToken token <;> rfl
    next => rfl
  | _ =>
    simp only [Patch.bind, resolve_withFiles]
    split <;> rfl

theorem bindAll_withFiles (files : Files) (last : List Char) (params : List ParamSpec)
    (tokens : List (List Char)) :
    (patch.withFiles files).bindAll last params tokens
      = ((patch.bindAll last params tokens).1,
          (patch.bindAll last params tokens).2.withFiles files) := by
  induction params generalizing patch last tokens with
  | nil => cases tokens <;> rfl
  | cons param params ih =>
    cases tokens with
    | nil => rfl
    | cons token tokens =>
      rw [Patch.bindAll, Patch.bindAll, bind_withFiles]
      cases patch.bind param.kind token with
      | mk result next =>
        cases result with
        | error fault => rfl
        | ok value =>
          dsimp only
          rw [ih]
          cases next.bindAll token params tokens with
          | mk result last => cases result <;> rfl

theorem insert_withFiles (files : Files) (name : String) (id : Nat) :
    (patch.withFiles files).insert name id = (patch.insert name id).withFiles files := by
  have htable : (patch.withFiles files).table = patch.table := rfl
  unfold Patch.insert
  rw [htable]
  cases patch.table.insert name id with
  | mk old table => cases old <;> rfl

theorem define_withFiles (files : Files) (lineNumber : Nat) (tokens : List (List Char)) :
    (patch.withFiles files).define registry lineNumber tokens
      = ((patch.define registry lineNumber tokens).1,
          (patch.define registry lineNumber tokens).2.withFiles files) := by
  unfold Patch.define
  dsimp only
  split
  next => rfl
  next descriptor _ =>
    split
    next => rfl
    next name tokens _ =>
      rw [bindAll_withFiles]
      cases patch.bindAll name descriptor.params tokens with
      | mk result next =>
        cases result with
        | error refusal => rfl
        | ok values =>
          dsimp only
          split
          next => rfl
          next device _ =>
            have hbuild : (next.withFiles files).build device
                = ((next.build device).1, (next.build device).2.withFiles files) := rfl
            rw [hbuild]
            dsimp only
            rw [← insert_withFiles]
            rfl

end Patch

namespace Parser

variable {registry : Registry}

def withFiles (parser : Parser) (files : Files) : Parser :=
  { parser with patch := parser.patch.withFiles files }

theorem addLine_withFiles (parser : Parser) (files : Files) (line : List Char) :
    (parser.withFiles files).addLine registry line
      = ((parser.addLine registry line).1, (parser.addLine registry line).2.withFiles files) := by
  have hpatch : (parser.withFiles files).patch = parser.patch.withFiles files := rfl
  have hnumber : (parser.withFiles files).lineNumber = parser.lineNumber := rfl
  unfold Parser.addLine
  dsimp only
  rw [hpatch, hnumber, Patch.define_withFiles]
  split
  next => rfl
  next =>
    cases parser.patch.define registry (parser.lineNumber + 1) (tokens line) with
    | mk result next => cases result <;> rfl

theorem addLines_withFiles (parser : Parser) (files : Files) (lines : List (List Char)) :
    (parser.withFiles files).addLines registry lines
      = ((parser.addLines registry lines).1,
          (parser.addLines registry lines).2.withFiles files) := by
  induction lines generalizing parser with
  | nil => rfl
  | cons line rest ih =>
    rw [addLines, addLines, addLine_withFiles]
    cases parser.addLine registry line with
    | mk result next =>
      cases result with
      | error e => rfl
      | ok id => exact ih next

end Parser

theorem Patch.parse_withFiles {registry : Registry} (patch : Patch) (files : Files)
    (text : String) :
    (patch.withFiles files).parse registry text
      = ((patch.parse registry text).1, (patch.parse registry text).2.withFiles files) := by
  have hstart : ({ patch := patch.withFiles files } : Parser)
      = Parser.withFiles { patch } files := rfl
  unfold Patch.parse Parser.parse
  rw [hstart, Parser.addLines_withFiles]
  rfl

end PatchSynth
