import PatchSynth.Proofs.Patch.Line
import PatchSynth.Proofs.Rack.Cause
import PatchSynth.Proofs.Studio.History

/-!
This module contains what the numbers of texts are good for. A token that starts with a digit always
has one, that of the longest numeral at its front, and it is neither NaN nor negative. So the limits
of the rescalers that texts make have an order, and no rescaler of a session fails for want of one.
-/

namespace PatchSynth

theorem Device.exists_fill_of_ordered {device : Device Feed} (hstandard : device.isCustom = false)
    (hordered : device.isOrdered = true) (request : Request) (phase : Float32) :
    ∃ result, device.fill request phase = .ok result := by
  cases hfill : device.fill request phase with
  | ok result => exact ⟨result, rfl⟩
  | error e =>
    cases device with
    | rescaler input low high =>
      have hlimits : (Range.between low high).isOrdered = true := hordered
      unfold fill rescale at hfill
      dsimp only at hfill
      rw [hlimits] at hfill
      split at hfill <;> cases hfill
    | custom processor inputs => cases hstandard
    | _ => cases hfill

namespace Rack

variable {rack next : Rack}

structure Ordered (rack : Rack) : Prop where
  standard : rack.Standard
  ordered : ∀ (id : Nat) (node : Node), rack.nodes[id]? = some node → node.device.isOrdered = true

theorem Ordered.empty (files : Files) : Ordered { files } := by
  constructor <;>
    · intro id node hnode
      simp at hnode

theorem Ordered.add (h : rack.Ordered) {device : Device Nat} (hmade : device.Made rack) :
    (rack.add device).2.Ordered := by
  constructor
  · intro id node hnode
    obtain ⟨-, hold⟩ | ⟨-, rfl⟩ := nodes_add_cases hnode
    · exact h.standard id node hold
    · exact hmade.standard
  · intro id node hnode
    obtain ⟨-, hold⟩ | ⟨-, rfl⟩ := nodes_add_cases hnode
    · exact h.ordered id node hold
    · exact hmade.ordered

theorem Ordered.of_shape (h : rack.Ordered) (hshape : next.shape = rack.shape) : next.Ordered := by
  refine ⟨h.standard.of_shape hshape, ?_⟩
  intro id node hnode
  obtain ⟨old, hold, hdevice, -⟩ := exists_of_shape hshape hnode
  rw [← hdevice]
  exact h.ordered id old hold

theorem Ordered.exists_fill (h : rack.Ordered) {id : Nat} {node : Node}
    (hnode : rack.nodes[id]? = some node) (feed : Nat → Feed) (request : Request)
    (phase : Float32) : ∃ result, (node.device.map feed).fill request phase = .ok result := by
  apply Device.exists_fill_of_ordered
  · rw [Device.isCustom_map]
    exact h.standard id node hnode
  · rw [Device.isOrdered_map]
    exact h.ordered id node hnode

theorem Ordered.ne_unorderedLimits (h : rack.Ordered) {request : Request} {root : Nat} {e : Error}
    (herror : (rack.output request root).1 = .error e) (device : String) :
    e ≠ .unorderedLimits device := by
  obtain ⟨other, -, hraised⟩ := exists_raised_of_output herror
  cases hraised with
  | unwired => rintro ⟨⟩
  | demands hnode hdemands =>
    obtain ⟨_, _, _, _, rfl⟩ := isInputRange_of_checkDemands hdemands
    rintro ⟨⟩
  | fill hnode hfill =>
    obtain ⟨result, hok⟩ := h.exists_fill hnode _ _ _
    cases hok.symm.trans hfill
  | record hnode hfill hrecorded =>
    obtain ⟨_, _, _, _, rfl⟩ := Node.exists_of_recorded_eq_error hrecorded
    rintro ⟨⟩
  | check hnode hcheck =>
    obtain ⟨_, rfl⟩ := Node.exists_of_check_eq_error hcheck
    rintro ⟨⟩

end Rack

namespace Patch

variable {token : List Char} {number : Float32}

theorem bind_of_number (h : numberOfToken token = some number) (patch : Patch) :
    patch.bind .float token = (.ok (.float number), patch) ∧
      patch.bind .int token = (.ok (.int (Single.toIntSaturating (-0x8000000000000000)
        0x7FFFFFFFFFFFFFFF number)), patch) ∧
      patch.bind .mono token = (.ok (.mono patch.rack.nodes.size), patch.addLiteral number) := by
  have hmono := bind_of_denotes (@Scope.Denotes.literal patch.scope _ token number h)
  rw [Scope.literalOf, if_pos rfl, h] at hmono
  exact ⟨bind_of_denotes (.float h), bind_of_denotes (.int h), hmono⟩

end Patch

namespace Studio

/--
A token has a number if and only if it starts with a digit. The number is that of the longest numeral
at the front: as many bytes as the scan counts, which end with a character, read and rounded to
nearest. It is neither NaN nor negative, and it binds wherever a number or a mono instance is due.
In no session whose nodes come from texts do the limits of a rescaler lack an order.
-/
theorem number_of_token (token : List Char) :
    (numberOfToken token = none ↔ startsWithDigit token = false) ∧
    (startsWithDigit token = true →
      ∃ (numeral : Single.Numeral) (rest : List Char), numeral.WellFormed ∧
        token = numeral.text ++ rest ∧
        numeralLength (utf8Bytes token) = (utf8Bytes numeral.text).length ∧
        (∀ other : Single.Numeral, other.WellFormed → other.text <+: token →
          (utf8Bytes other.text).length ≤ numeralLength (utf8Bytes token)) ∧
        takeBytes token (numeralLength (utf8Bytes token)) = some numeral.text ∧
        Single.read (String.ofList numeral.text) = .ok numeral.value ∧
        numberOfToken token = some numeral.value ∧
        Single.Rounds numeral.value numeral.exact ∧
        Single.isNaN numeral.value = false ∧ Single.isNegative numeral.value = false ∧
        ∀ patch : Patch,
          patch.bind .float token = (.ok (.float numeral.value), patch) ∧
          patch.bind .int token = (.ok (.int (Single.toIntSaturating (-0x8000000000000000)
            0x7FFFFFFFFFFFFFFF numeral.value)), patch) ∧
          patch.bind .mono token
            = (.ok (.mono patch.rack.nodes.size), patch.addLiteral numeral.value)) ∧
    ∀ {files : Files} {tasks : List Task} {studio : Studio},
      (fresh files).AllowsAll tasks → (∀ device, .build device ∉ tasks) →
      (fresh files).performAll tasks = studio →
        (∀ {id : Nat} {node : Node}, studio.patch.rack.nodes[id]? = some node →
          ∀ feed request phase, ∃ result,
            (node.device.map feed).fill request phase = .ok result) ∧
        (∀ id timestamp frames device,
          (studio.output id timestamp frames).1 ≠ .error (.unorderedLimits device)) ∧
        ∀ (player : Player) (play : Play) device,
          (player.play studio.patch play).1 ≠ .error (.unorderedLimits device) := by
  refine ⟨?_, ?_, ?_⟩
  · cases hdigit : startsWithDigit token with
    | false => simp [numberOfToken_eq_none hdigit]
    | true => simp [numberOfToken_of_digit hdigit]
  · intro hdigit
    have hnumber := numberOfToken_of_digit hdigit
    have hwell := Single.Numeral.wellFormed_scan hdigit
    have hrounds := (Single.Numeral.scan token).1.rounds_value
    refine ⟨(Single.Numeral.scan token).1, (Single.Numeral.scan token).2, hwell,
      (Single.Numeral.text_scan token).symm, numeralLength_utf8Bytes token, ?_,
      takeBytes_numeral token, Single.read_text hwell, hnumber, hrounds, hrounds.isNaN_eq,
      Single.Numeral.isNegative_value _, Patch.bind_of_number hnumber⟩
    rintro other hother ⟨rest, rfl⟩
    obtain ⟨more, hmore⟩ := Single.Numeral.text_prefix_scan hother rest
    rw [numeralLength_utf8Bytes, ← hmore, utf8Bytes_append, List.length_append]
    exact Nat.le_add_right _ _
  · rintro files tasks studio hallowed hparsed rfl
    have hordered : ((fresh files).performAll tasks).patch.rack.Ordered :=
      keep_performAll (fun hshape hrack => hrack.of_shape hshape)
        (fun hrack hmade => hrack.add hmade) (reached_fresh files) hallowed hparsed
        (Rack.Ordered.empty files)
    refine ⟨hordered.exists_fill, ?_, ?_⟩
    · intro id timestamp frames device herror
      exact hordered.ne_unorderedLimits herror device rfl
    · intro player play device herror
      rw [Player.play_eq_advance] at herror
      obtain ⟨before, request, houtput⟩ := Player.exists_output_of_advance herror
      exact (hordered.of_shape (Rack.shape_outputs _ before)).ne_unorderedLimits houtput device rfl

def accentedTasks : List Task :=
  [.parse "Constant c(1.5e+2\u00e9)\nRescaler r(c, 9e99hz, 5e-)", .setAxis 0 1]

theorem number_of_token_accented :
    startsWithDigit "1.5e+2\u00e9".toList = true ∧
      (∃ numeral : Single.Numeral, numeral.WellFormed ∧
        takeBytes "1.5e+2\u00e9".toList 6 = some numeral.text ∧
        numberOfToken "1.5e+2\u00e9".toList = some numeral.value ∧
        Single.Rounds numeral.value numeral.exact) ∧
      (fresh {}).AllowsAll accentedTasks ∧ (∀ device, .build device ∉ accentedTasks) ∧
      ∃ node high, ((fresh {}).performAll accentedTasks).patch.rack.nodes[1]? = some node ∧
        node.device = .rescaler 0 Single.infinity high ∧
        (∀ feed request phase, ∃ result,
          (node.device.map feed).fill request phase = .ok result) ∧
        ∀ timestamp frames device,
          (((fresh {}).performAll accentedTasks).output 1 timestamp frames).1
            ≠ .error (.unorderedLimits device) := by
  have hallowed : (fresh {}).AllowsAll accentedTasks := ⟨trivial, trivial, trivial⟩
  have hparsed : ∀ device, .build device ∉ accentedTasks := by simp [accentedTasks]
  have hdigit : startsWithDigit "1.5e+2\u00e9".toList = true := by decide
  have hlength : numeralLength (utf8Bytes "1.5e+2\u00e9".toList) = 6 := by decide
  obtain ⟨-, hnumber, hsession⟩ := number_of_token "1.5e+2\u00e9".toList
  obtain ⟨numeral, -, hwell, -, -, -, htake, -, hvalue, hrounds, -⟩ := hnumber hdigit
  rw [hlength] at htake
  obtain ⟨hfill, houtput, -⟩ := hsession hallowed hparsed rfl
  obtain ⟨node, high, hnode, hdevice⟩ : ∃ node high,
      ((fresh {}).performAll accentedTasks).patch.rack.nodes[1]? = some node ∧
        node.device = .rescaler 0 Single.infinity high := ⟨_, _, rfl, rfl⟩
  exact ⟨hdigit, ⟨numeral, hwell, htake, hvalue, hrounds⟩, hallowed, hparsed, node, high, hnode,
    hdevice, hfill hnode, houtput 1⟩

end Studio
end PatchSynth
