import PatchSynth.Proofs.Patch.Line

/-!
This module contains that the types of a patch text are made to fit before a factory sees them. A
factory is called with parameters of its own schema only, each instance among them with the channels
of its kind, so that standard factories never fail and standard nodes read inputs with the channels
that they expect.
-/

namespace PatchSynth

structure FactoryCall where
  descriptor : Descriptor
  values : List ParamValue
  rack : Rack

namespace FactoryCall

def params (call : FactoryCall) : Params :=
  { values := call.values }

/--
Whether the parameters of a call are as many as the schema has and of its kinds, in order, and
whether the instances among them stand and have the channels of their kind.
-/
structure WellTyped (call : FactoryCall) : Prop where
  kinds_eq : call.values.map ParamValue.kind = call.descriptor.params.map ParamSpec.kind
  mono : ∀ id, .mono id ∈ call.values →
    ∃ node, call.rack.nodes[id]? = some node ∧ node.device.isStereo = false
  stereo : ∀ id, .stereo id ∈ call.values →
    ∃ node, call.rack.nodes[id]? = some node ∧ node.device.isStereo = true

end FactoryCall

theorem Rack.Offers.exists_node {rack : Rack} {id channels : Nat} (h : rack.Offers id channels) :
    ∃ node, rack.nodes[id]? = some node ∧ node.device.channels = channels := by
  obtain ⟨hlt, hchannels⟩ := h
  have hnode : rack.nodes[id]? = some rack.nodes[id] := Array.getElem?_eq_getElem hlt
  refine ⟨_, hnode, ?_⟩
  rw [← hchannels, Rack.channelsOf, hnode]

namespace Rack

def Wired (rack : Rack) : Prop :=
  ∀ (id : Nat) (node : Node), rack.nodes[id]? = some node → node.device.Wired rack

variable {rack next : Rack}

theorem Wired.empty (files : Files) : Wired { files } := by
  intro id node hnode
  simp at hnode

theorem Wired.add (h : rack.Wired) {device : Device Nat} (hwired : device.Wired rack) :
    (rack.add device).2.Wired := by
  have hkept : ∀ {other : Device Nat}, other.Wired rack → other.Wired (rack.add device).2 :=
    fun hother => ⟨hother.standard, fun input hmem =>
      (hother.inputs input hmem).mono (rack.extends_add device)⟩
  intro id node hnode
  obtain ⟨-, hnode⟩ | ⟨-, rfl⟩ := nodes_add_cases hnode
  · exact hkept (h id node hnode)
  · exact hkept hwired

theorem Wired.of_shape (h : rack.Wired) (hshape : next.shape = rack.shape) : next.Wired := by
  intro id node hnode
  obtain ⟨old, hold, hdevice, -⟩ := exists_of_shape hshape hnode
  obtain ⟨hstandard, hinputs⟩ := h id old hold
  rw [hdevice] at hstandard hinputs
  refine ⟨hstandard, ?_⟩
  intro input hmem
  obtain ⟨hlt, hchannels⟩ := hinputs input hmem
  rw [← size_nodes_of_shape hshape] at hlt
  exact ⟨hlt, by rw [channelsOf_of_shape hshape, hchannels]⟩

theorem Wired.wellTyped (h : rack.Wired) : rack.WellTyped := by
  intro id node hnode
  exact ⟨(h id node hnode).standard, fun input hmem => ((h id node hnode).inputs input hmem).2⟩

end Rack

def Descriptor.Total (descriptor : Descriptor) : Prop :=
  ∀ params : Params,
    params.values.map ParamValue.kind = descriptor.params.map ParamSpec.kind →
      ∃ device, descriptor.factory params = .ok device

theorem exists_ok_bind {α β ε : Type} {first : Except ε α} {rest : α → Except ε β}
    (hfirst : ∃ value, first = .ok value) (hrest : ∀ value, ∃ result, rest value = .ok result) :
    ∃ result, first >>= rest = .ok result := by
  obtain ⟨value, rfl⟩ := hfirst
  exact hrest value

namespace Params

def Has (params : Params) (index : Nat) : ParamKind → Prop
  | .float => ∃ value, params.float index = .ok value
  | .int => ∃ value, params.int index = .ok value
  | .mono => ∃ id, params.mono index = .ok id
  | .stereo => ∃ id, params.stereo index = .ok id
  | .string => False

theorem has_of_kind {params : Params} {kinds : List ParamKind}
    (h : params.values.map ParamValue.kind = kinds) {index : Nat} {kind : ParamKind}
    (hkind : kinds[index]? = some kind) : params.Has index kind := by
  subst h
  rw [List.getElem?_map, Option.map_eq_some_iff] at hkind
  obtain ⟨value, hvalue, rfl⟩ := hkind
  cases value with
  | float value => exact ⟨value, by rw [float, hvalue]⟩
  | int value => exact ⟨value, by rw [int, hvalue]⟩
  | mono id => exact ⟨id, by rw [mono, hvalue]⟩
  | stereo id => exact ⟨id, by rw [stereo, hvalue]⟩

end Params

namespace Catalog

theorem total_constant : constant.Total := by
  intro params h
  have hvalue : params.Has 0 .float := Params.has_of_kind h rfl
  exact exists_ok_bind hvalue fun _ => ⟨_, rfl⟩

theorem total_input : input.Total := by
  intro params h
  have haxis : params.Has 0 .int := Params.has_of_kind h rfl
  exact exists_ok_bind haxis fun _ => ⟨_, rfl⟩

theorem total_oscillator (waveform : Waveform) : (oscillator waveform).Total := by
  intro params h
  have hfrequency : params.Has 0 .mono := Params.has_of_kind h rfl
  exact exists_ok_bind hfrequency fun _ => ⟨_, rfl⟩

theorem total_of_pair {descriptor : Descriptor} {make : Nat → Nat → Device Nat}
    (hkinds : descriptor.params.map ParamSpec.kind = [.mono, .mono])
    (hfactory : ∀ params, descriptor.factory params
      = do return make (← params.mono 0) (← params.mono 1)) : descriptor.Total := by
  intro params h
  rw [hkinds] at h
  rw [hfactory]
  have ha : params.Has 0 .mono := Params.has_of_kind h rfl
  have hb : params.Has 1 .mono := Params.has_of_kind h rfl
  exact exists_ok_bind ha fun _ => exists_ok_bind hb fun _ => ⟨_, rfl⟩

theorem total_add : add.Total :=
  total_of_pair rfl fun _ => rfl

theorem total_multiply : multiply.Total :=
  total_of_pair rfl fun _ => rfl

theorem total_pan : pan.Total :=
  total_of_pair rfl fun _ => rfl

theorem total_stereoAdd : stereoAdd.Total := by
  intro params h
  have ha : params.Has 0 .stereo := Params.has_of_kind h rfl
  have hb : params.Has 1 .stereo := Params.has_of_kind h rfl
  exact exists_ok_bind ha fun _ => exists_ok_bind hb fun _ => ⟨_, rfl⟩

theorem total_rescaler : rescaler.Total := by
  intro params h
  have hsource : params.Has 0 .mono := Params.has_of_kind h rfl
  have hlow : params.Has 1 .float := Params.has_of_kind h rfl
  have hhigh : params.Has 2 .float := Params.has_of_kind h rfl
  exact exists_ok_bind hsource fun _ => exists_ok_bind hlow fun _ =>
    exists_ok_bind hhigh fun _ => ⟨_, rfl⟩

end Catalog

namespace Registry

theorem total_get? {typeName : String} {descriptor : Descriptor}
    (h : standard.get? typeName = some descriptor) : descriptor.Total := by
  have hmem := mem_ofList (List.mem_of_find?_eq_some h)
  simp only [List.mem_cons, List.not_mem_nil, or_false] at hmem
  obtain rfl | rfl | rfl | rfl | rfl | rfl | rfl | rfl | rfl | rfl := hmem
  · exact Catalog.total_constant
  · exact Catalog.total_oscillator _
  · exact Catalog.total_oscillator _
  · exact Catalog.total_oscillator _
  · exact Catalog.total_add
  · exact Catalog.total_multiply
  · exact Catalog.total_rescaler
  · exact Catalog.total_pan
  · exact Catalog.total_stereoAdd
  · exact Catalog.total_input

def withFactories (registry : Registry)
    (factories : Descriptor → Params → Except Error (Device Nat)) : Registry :=
  { descriptors :=
      registry.descriptors.map fun descriptor =>
        { descriptor with factory := factories descriptor } }

theorem get?_withFactories (registry : Registry)
    (factories : Descriptor → Params → Except Error (Device Nat)) (typeName : String) :
    (registry.withFactories factories).get? typeName
      = (registry.get? typeName).map fun descriptor =>
          { descriptor with factory := factories descriptor } := by
  rw [get?, withFactories, List.find?_map]
  rfl

end Registry

theorem Scope.Misfit.ne_instantiate {scope : Scope} {kind : ParamKind} {token : List Char}
    {fault : ParseFault} (h : scope.Misfit kind token fault) (cause : Error) :
    fault ≠ .instantiate cause := by
  cases h <;> simp

namespace Patch

variable {patch next : Patch} {registry : Registry} {kind : ParamKind} {token : List Char}
  {value : ParamValue}

theorem kind_of_resolve {stereo : Bool} {wrap : Nat → ParamValue}
    (hwrap : ∀ id, (wrap id).kind = kind)
    (h : (patch.resolve token stereo).map wrap = .ok value) : value.kind = kind := by
  cases hresolve : patch.resolve token stereo with
  | error fault =>
    rw [hresolve] at h
    cases h
  | ok id =>
    rw [hresolve] at h
    cases h
    exact hwrap id

theorem kind_of_bind (h : (patch.bind kind token).1 = .ok value) : value.kind = kind := by
  cases kind with
  | float =>
    simp only [bind] at h
    split at h <;> cases h
    rfl
  | int =>
    simp only [bind] at h
    split at h <;> cases h
    rfl
  | mono =>
    simp only [bind] at h
    split at h
    next =>
      split at h <;> cases h
      rfl
    next => exact kind_of_resolve (fun _ => rfl) h
  | stereo =>
    simp only [bind] at h
    split at h
    next => exact kind_of_resolve (fun _ => rfl) h
    next => cases h
  | string => cases h

theorem kinds_of_bindAll {last : List Char} {params : List ParamSpec} {tokens : List (List Char)}
    {values : List ParamValue} (h : (patch.bindAll last params tokens).1 = .ok values) :
    values.map ParamValue.kind = params.map ParamSpec.kind := by
  fun_induction bindAll patch last params tokens generalizing values with
  | case1 =>
    cases h
    rfl
  | case2 => cases h
  | case3 => cases h
  | case4 => cases h
  | case5 => cases h
  | case6 patch _ param _ token _ value next hbind _ _ hrest ih =>
    cases h
    have hkind : value.kind = param.kind := kind_of_bind (by rw [hbind])
    rw [List.map_cons, List.map_cons, hkind, ih (by rw [hrest])]

theorem grows_named : Grows Named :=
  { named := fun h => h
    build := fun h _ => h.build _
    insert := fun name _ h hid => h.insert name hid
    insertAnonymous := fun _ h => h
    note := fun _ h => h }

def prepare (patch : Patch) (registry : Registry) (tokens : List (List Char)) :
    Except Refusal FactoryCall × Patch :=
  let typeToken := tokens.headD []
  match registry.get? (String.ofList typeToken) with
  | none => (.error { fault := .unknownType, token := typeToken }, patch)
  | some descriptor =>
    match tokens.tail with
    | [] => (.error { fault := .missingName, token := typeToken }, patch)
    | name :: tokens =>
      match patch.bindAll name descriptor.params tokens with
      | (.error refusal, patch) => (.error refusal, patch)
      | (.ok values, patch) => (.ok { descriptor, values, rack := patch.rack }, patch)

def conclude (patch : Patch) (lineNumber : Nat) (tokens : List (List Char)) :
    Except Error (Device Nat) → Except Refusal Nat × Patch
  | .error cause => (.error { fault := .instantiate cause, token := tokens.headD [] }, patch)
  | .ok device =>
    let (id, patch) := patch.build device
    let name := String.ofList (tokens.tail.headD [])
    let patch := patch.note (.instantiated lineNumber (String.ofList (tokens.headD [])) name)
    (.ok id, patch.insert name id)

theorem define_eq (patch : Patch) (registry : Registry) (lineNumber : Nat)
    (tokens : List (List Char)) :
    patch.define registry lineNumber tokens =
      match patch.prepare registry tokens with
      | (.error refusal, next) => (.error refusal, next)
      | (.ok call, next) =>
        next.conclude lineNumber tokens (call.descriptor.factory call.params) := by
  unfold define prepare
  dsimp only
  cases registry.get? (String.ofList (tokens.headD [])) with
  | none => rfl
  | some descriptor =>
    dsimp only
    cases htail : tokens.tail with
    | nil => rfl
    | cons name rest =>
      dsimp only
      cases patch.bindAll name descriptor.params rest with
      | mk result next =>
        cases result with
        | error refusal => rfl
        | ok values =>
          dsimp only [FactoryCall.params]
          cases descriptor.factory { values } with
          | error cause => rfl
          | ok device =>
            simp only [conclude, htail]
            rfl

theorem prepare_withFactories (patch : Patch) (registry : Registry)
    (factories : Descriptor → Params → Except Error (Device Nat)) (tokens : List (List Char)) :
    patch.prepare (registry.withFactories factories) tokens
      = ((patch.prepare registry tokens).1.map fun call =>
            { call with
              descriptor := { call.descriptor with factory := factories call.descriptor } },
          (patch.prepare registry tokens).2) := by
  unfold prepare
  dsimp only
  rw [Registry.get?_withFactories]
  cases registry.get? (String.ofList (tokens.headD [])) with
  | none => rfl
  | some descriptor =>
    dsimp only [Option.map_some]
    cases tokens.tail with
    | nil => rfl
    | cons name rest =>
      dsimp only
      cases patch.bindAll name descriptor.params rest with
      | mk result next => cases result <;> rfl

theorem Named.prepare (h : patch.Named) (registry : Registry) (tokens : List (List Char)) :
    (patch.prepare registry tokens).2.Named ∧
      ∀ call, (patch.prepare registry tokens).1 = .ok call →
        registry.get? (String.ofList (tokens.headD [])) = some call.descriptor ∧
        call.WellTyped := by
  unfold Patch.prepare
  dsimp only
  split
  next =>
    refine ⟨h, ?_⟩
    intro call hcall
    cases hcall
  next descriptor hdescriptor =>
    split
    next =>
      refine ⟨h, ?_⟩
      intro call hcall
      cases hcall
    next name tokens _ =>
      obtain ⟨hnamed, -, hfits⟩ := grows_named.bindAll h name descriptor.params tokens
      split
      next hbind =>
        rw [hbind] at hnamed
        refine ⟨hnamed, ?_⟩
        intro call hcall
        cases hcall
      next values next hbind =>
        rw [hbind] at hnamed hfits
        refine ⟨hnamed, ?_⟩
        intro call hcall
        cases hcall
        refine ⟨hdescriptor, kinds_of_bindAll (by rw [hbind]), ?_, ?_⟩
        · intro id hmem
          obtain ⟨node, hnode, hchannels⟩ := Rack.Offers.exists_node (hfits values rfl _ hmem)
          refine ⟨node, hnode, ?_⟩
          cases hstereo : node.device.isStereo with
          | false => rfl
          | true => simp [Device.channels, hstereo] at hchannels
        · intro id hmem
          obtain ⟨node, hnode, hchannels⟩ := Rack.Offers.exists_node (hfits values rfl _ hmem)
          refine ⟨node, hnode, ?_⟩
          cases hstereo : node.device.isStereo with
          | false => simp [Device.channels, hstereo] at hchannels
          | true => rfl

theorem Named.conclude (h : patch.Named) (lineNumber : Nat) (tokens : List (List Char))
    (answer : Except Error (Device Nat)) : (patch.conclude lineNumber tokens answer).2.Named := by
  cases answer with
  | error cause => exact h
  | ok device =>
    have hnoted : ((patch.build device).2.note (.instantiated lineNumber
        (String.ofList (tokens.headD [])) (String.ofList (tokens.tail.headD [])))).Named :=
      h.build device
    have hlt : (patch.build device).1 < (patch.build device).2.rack.nodes.size := by
      simp [Patch.build, Rack.add]
    exact hnoted.insert _ hlt

theorem Named.define (h : patch.Named) (registry : Registry) (lineNumber : Nat)
    (tokens : List (List Char)) : (patch.define registry lineNumber tokens).2.Named := by
  have hprepare := (h.prepare registry tokens).1
  rw [define_eq]
  split
  next hresult =>
    rw [hresult] at hprepare
    exact hprepare
  next hresult =>
    rw [hresult] at hprepare
    exact hprepare.conclude lineNumber tokens _

theorem define_withFactories {factories : Descriptor → Params → Except Error (Device Nat)}
    {tokens : List (List Char)}
    (h : ∀ call, (patch.prepare registry tokens).1 = .ok call →
      factories call.descriptor call.params = call.descriptor.factory call.params)
    (lineNumber : Nat) :
    patch.define (registry.withFactories factories) lineNumber tokens
      = patch.define registry lineNumber tokens := by
  rw [define_eq, define_eq, prepare_withFactories]
  cases hprepare : patch.prepare registry tokens with
  | mk result next =>
    cases result with
    | error refusal => rfl
    | ok call =>
      have hanswer := h call (by rw [hprepare])
      simp only [Except.map, FactoryCall.params] at hanswer ⊢
      rw [hanswer]

theorem fault_ne_instantiate
    (htotal : ∀ {typeName descriptor}, registry.get? typeName = some descriptor →
      descriptor.Total)
    {lineNumber : Nat} {tokens : List (List Char)} {refusal : Refusal}
    (h : (patch.define registry lineNumber tokens).1 = .error refusal) (cause : Error) :
    refusal.fault ≠ .instantiate cause := by
  obtain ⟨name, device, numbers, haccepts⟩ | ⟨fault, token, numbers, hrefuses⟩ :=
    Scope.accepts_or_refuses registry patch.scope patch.rack.nodes.size tokens
  · rw [(define_of_accepts haccepts lineNumber).1] at h
    cases h
  · rw [define_of_refuses hrefuses] at h
    cases h
    cases hrefuses with
    | unknownType => simp
    | missingName => simp
    | param _ _ _ hmisfit => exact hmisfit.ne_instantiate cause
    | surplus => simp
    | missing => simp
    | @factory _ name _ _ _ _ htype _ hvalues hcause =>
      -- The parameters have the kinds of the schema, so that the factory cannot fail.
      have hkinds := kinds_of_bindAll (congrArg Prod.fst (bindAll_of_binds hvalues name))
      obtain ⟨device, hdevice⟩ := htotal htype _ hkinds
      rw [hdevice] at hcause
      cases hcause

/--
Whether all nodes are standard ones that have all of their inputs, and all names are bound to nodes
that stand.
-/
structure Typed (patch : Patch) : Prop where
  named : patch.Named
  wired : patch.rack.Wired

theorem Typed.of_rack_eq (h : patch.Typed) (hnamed : next.Named) (hrack : next.rack = patch.rack) :
    next.Typed :=
  ⟨hnamed, hrack ▸ h.wired⟩

theorem Typed.build (h : patch.Typed) {device : Device Nat} (hwired : device.Wired patch.rack) :
    (patch.build device).2.Typed :=
  ⟨h.named.build device, h.wired.add hwired⟩

theorem grows_typed : Grows Typed :=
  { named := fun h => h.named
    build := fun h hmade => h.build hmade.toWired
    insert := fun name _ h hid => h.of_rack_eq (h.named.insert name hid) (rack_insert _ name _)
    insertAnonymous := fun _ h => h.of_rack_eq h.named rfl
    note := fun _ h => h.of_rack_eq h.named rfl }

end Patch

namespace Parser

variable {parser : Parser} {registry : Registry} {line : List Char}

def call? (parser : Parser) (registry : Registry) (line : List Char) : Option FactoryCall :=
  if isComment line then none else (parser.patch.prepare registry (tokens line)).1.toOption

def readAll (parser : Parser) (registry : Registry) :
    List (List Char) → List (Except ParseError (Option Nat)) × Parser
  | [] => ([], parser)
  | line :: rest =>
    let (result, parser) := parser.addLine registry line
    let (results, parser) := parser.readAll registry rest
    (result :: results, parser)

def calls (parser : Parser) (registry : Registry) : List (List Char) → List FactoryCall
  | [] => []
  | line :: rest =>
    (parser.call? registry line).toList ++ (parser.addLine registry line).2.calls registry rest

theorem patch_addLine (parser : Parser) (registry : Registry) (line : List Char) :
    (parser.addLine registry line).2.patch
      = if isComment line then parser.patch
        else (parser.patch.define registry (parser.lineNumber + 1) (tokens line)).2 := by
  unfold addLine
  dsimp only
  split
  next => rfl
  next =>
    split
    next hresult => rw [hresult]
    next hresult => rw [hresult]

theorem named_addLine (h : parser.patch.Named) (registry : Registry) (line : List Char) :
    (parser.addLine registry line).2.patch.Named := by
  rw [patch_addLine]
  split
  next => exact h
  next => exact h.define registry _ _

theorem wellTyped_call? (h : parser.patch.Named) {call : FactoryCall}
    (hcall : parser.call? registry line = some call) : call.WellTyped := by
  unfold call? at hcall
  split at hcall
  next => cases hcall
  next =>
    cases hprepare : (parser.patch.prepare registry (tokens line)).1 with
    | error refusal =>
      rw [hprepare] at hcall
      cases hcall
    | ok found =>
      have hfound := ((h.prepare registry (tokens line)).2 found hprepare).2
      rw [hprepare] at hcall
      cases hcall
      exact hfound

theorem wellTyped_of_mem_calls (h : parser.patch.Named) {lines : List (List Char)}
    {call : FactoryCall} (hcall : call ∈ parser.calls registry lines) : call.WellTyped := by
  induction lines generalizing parser with
  | nil => cases hcall
  | cons line rest ih =>
    rw [calls, List.mem_append, Option.mem_toList] at hcall
    obtain hcall | hcall := hcall
    · exact wellTyped_call? h hcall
    · exact ih (named_addLine h registry line) hcall

theorem addLine_withFactories {factories : Descriptor → Params → Except Error (Device Nat)}
    (h : ∀ call, parser.call? registry line = some call →
      factories call.descriptor call.params = call.descriptor.factory call.params) :
    parser.addLine (registry.withFactories factories) line = parser.addLine registry line := by
  unfold addLine
  dsimp only
  cases hcomment : isComment line with
  | true => rfl
  | false =>
    rw [Patch.define_withFactories]
    intro call hcall
    apply h
    rw [call?, hcomment, hcall]
    rfl

theorem readAll_withFactories {factories : Descriptor → Params → Except Error (Device Nat)}
    {lines : List (List Char)}
    (h : ∀ call ∈ parser.calls registry lines,
      factories call.descriptor call.params = call.descriptor.factory call.params) :
    parser.readAll (registry.withFactories factories) lines = parser.readAll registry lines := by
  induction lines generalizing parser with
  | nil => rfl
  | cons line rest ih =>
    rw [calls, List.forall_mem_append] at h
    have hline : parser.addLine (registry.withFactories factories) line
        = parser.addLine registry line :=
      addLine_withFactories fun call hcall => h.1 call (Option.mem_toList.2 hcall)
    rw [readAll, readAll, hline]
    dsimp only
    rw [ih h.2]

theorem addLine_ne_instantiate
    (htotal : ∀ {typeName descriptor}, registry.get? typeName = some descriptor →
      descriptor.Total)
    {error : ParseError} (h : (parser.addLine registry line).1 = .error error) (cause : Error) :
    error.fault ≠ .instantiate cause := by
  unfold addLine at h
  dsimp only at h
  split at h
  next => cases h
  next =>
    split at h
    next => cases h
    next fault token next hdefine =>
      cases h
      exact Patch.fault_ne_instantiate htotal (congrArg Prod.fst hdefine) cause

theorem readAll_ne_instantiate
    (htotal : ∀ {typeName descriptor}, registry.get? typeName = some descriptor →
      descriptor.Total)
    {lines : List (List Char)} {error : ParseError}
    (h : .error error ∈ (parser.readAll registry lines).1) (cause : Error) :
    error.fault ≠ .instantiate cause := by
  induction lines generalizing parser with
  | nil => cases h
  | cons line rest ih =>
    obtain hline | hrest := List.mem_cons.1 h
    · exact addLine_ne_instantiate htotal hline.symm cause
    · exact ih hrest

theorem typed_readAll (h : parser.patch.Typed) (lines : List (List Char)) :
    (parser.readAll Registry.standard lines).2.patch.Typed := by
  induction lines generalizing parser with
  | nil => exact h
  | cons line rest ih => exact ih (Patch.grows_typed.addLine h line)

theorem exists_readAll_eq_addLines (parser : Parser) (registry : Registry)
    (lines : List (List Char)) :
    ∃ front, front <+: lines ∧
      (parser.addLines registry lines).2 = (parser.readAll registry front).2 := by
  induction lines generalizing parser with
  | nil => exact ⟨[], List.prefix_rfl, rfl⟩
  | cons line rest ih =>
    rw [addLines]
    cases hline : parser.addLine registry line with
    | mk result next =>
      cases result with
      | error error =>
        refine ⟨[line], ⟨rest, rfl⟩, ?_⟩
        simp only [readAll, hline]
      | ok id =>
        obtain ⟨front, hfront, hrest⟩ := ih next
        refine ⟨line :: front, List.cons_prefix_cons.2 ⟨rfl, hfront⟩, ?_⟩
        simp only [readAll, hline]
        exact hrest

/--
Whatever lines are read with whatever types, a factory is called with well-typed parameters only:
the answers that it would give to others never matter. So no line fails because of a standard
factory, and the nodes of standard types read inputs with the channels that they expect, although
names may be bound anew from a mono instance to a stereo one between two lines. The same holds for a
text, of which only the lines up to the first refused one are read.
-/
theorem calls_of_readAll {parser : Parser} (h : parser.patch.Named) (lines : List (List Char)) :
    (∀ registry, ∀ call ∈ parser.calls registry lines, call.WellTyped) ∧
    (∀ (registry : Registry) (factories : Descriptor → Params → Except Error (Device Nat)),
      (∀ call ∈ parser.calls registry lines,
        factories call.descriptor call.params = call.descriptor.factory call.params) →
        parser.readAll (registry.withFactories factories) lines
          = parser.readAll registry lines) ∧
    (∀ error, .error error ∈ (parser.readAll Registry.standard lines).1 →
      ∀ cause, error.fault ≠ .instantiate cause) ∧
    (parser.patch.Typed → (parser.readAll Registry.standard lines).2.patch.Typed) ∧
    ∀ registry, ∃ front, front <+: lines ∧
      (parser.addLines registry lines).2 = (parser.readAll registry front).2 := by
  refine ⟨?_, ?_, ?_, fun htyped => typed_readAll htyped lines,
    fun registry => parser.exists_readAll_eq_addLines registry lines⟩
  · intro registry call hcall
    exact wellTyped_of_mem_calls h hcall
  · intro registry factories hanswers
    exact readAll_withFactories hanswers
  · intro error herror cause
    exact readAll_ne_instantiate Registry.total_get? herror cause

def reboundLines : List (List Char) :=
  ["Constant x(1)".toList, "Pan x(x, 0)".toList, "StereoAdd y(x, x)".toList, "Sine z(x)".toList]

theorem typed_empty : ({} : Parser).patch.Typed := by
  refine ⟨?_, Rack.Wired.empty {}⟩
  intro name id hid
  cases hid

theorem calls_of_readAll_rebound :
    ({} : Parser).patch.Named ∧
      (({} : Parser).calls Registry.standard reboundLines).map (·.descriptor.typeName)
        = ["Constant", "Pan", "StereoAdd"] ∧
      (∀ call ∈ ({} : Parser).calls Registry.standard reboundLines, call.WellTyped) ∧
      (({} : Parser).readAll Registry.standard reboundLines).2.patch.Typed := by
  obtain ⟨hcalls, -, -, htyped, -⟩ := calls_of_readAll typed_empty.named reboundLines
  exact ⟨typed_empty.named, rfl, hcalls _, htyped typed_empty⟩

end Parser
end PatchSynth
