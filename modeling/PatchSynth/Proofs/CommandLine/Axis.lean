import PatchSynth.CommandLine.Parser
import PatchSynth.Proofs.CommandLine.Program
import PatchSynth.Proofs.Patch.Retoken
import PatchSynth.Proofs.Rack.Held
import PatchSynth.Proofs.Rack.Isolation
import PatchSynth.Proofs.Single.Integer
import PatchSynth.Proofs.Text.Digits

/-!
This module contains which axis a number names. The command line reads the digits as they are, and a
patch reads the single-precision number that is nearest to them. So they agree on the numbers that
single precision can hold, and on the largest one, at which the patch stops.
-/

namespace PatchSynth

open Single

namespace Options

variable {n : Nat} {text : String} {value : Float32}

theorem readAxis_toString (hn : n < 2 ^ 63) (hvalue : Single.read text = .ok value) :
    readAxis (toString n ++ "=" ++ text) = .ok (n, value) := by
  have haxis : toString (n : Int) = toString n := rfl
  rw [← haxis, readAxis_pair (by omega) (by omega) hvalue]

theorem parse_axis (hn : n < 2 ^ 63) (hvalue : Single.read text = .ok value) :
    parse ["--axis", toString n ++ "=" ++ text] = .ok { axis := [(n, value)] } := by
  have hname : Reading.next {} "--axis" = .ok { pending := some (.axis, none) } := by
    with_unfolding_all rfl
  have hpending : Reading.next { pending := some (.axis, none) } (toString n ++ "=" ++ text)
      = .ok { pending := some (.axis, some (toString n ++ "=" ++ text)) } := by
    obtain ⟨c, rest, hdigits, hc⟩ := exists_toDigits_eq n
    have hchars : (toString n ++ "=" ++ text).toList = c :: (rest ++ '=' :: text.toList) := by
      rw [String.toList_append, String.toList_append, toList_toString, hdigits, List.append_assoc]
      rfl
    have hdash : c ≠ '-' := by
      rintro rfl
      cases hc
    unfold Reading.next
    rw [if_neg (by decide), hchars]
    split
    next hdashes => exact absurd (List.cons.inj hdashes).1 hdash
    next hdashes => exact absurd (List.cons.inj hdashes).1 hdash
    next hdashes => exact absurd (List.cons.inj hdashes).1 hdash
    next => rfl
  have hsettle : Reading.settle { pending := some (.axis, some (toString n ++ "=" ++ text)) }
      = .ok { options := { axis := [(n, value)] }, given := [.axis] } := by
    have hread := readAxis_toString hn hvalue
    simp only [Reading.settle, Reading.enter, Argument.enter, hread, bind, Except.bind,
      Except.mapError, pure, Except.pure]
    rfl
  simp only [parse, List.foldlM_cons, List.foldlM_nil, hname, hpending, hsettle, bind, Except.bind,
    pure, Except.pure]
  rfl

theorem get_controls_axis {options : Options} (h : options.axis = [((n : Int), value)])
    (axis : Int) :
    options.controls.get axis = if axis = n then (axisRange n).clamp value else 0 := by
  rw [controls, h, List.foldl_cons, List.foldl_nil, Controls.get_set]
  rfl

end Options

def Patch.axisOf (n : Nat) : Int :=
  min 0x7FFFFFFFFFFFFFFF (neighbour n)

theorem Patch.axisOf_eq_iff {n : Nat} (hn : n < 2 ^ 63) :
    axisOf n = n ↔ spacing n ∣ n ∨ n = 2 ^ 63 - 1 := by
  rw [← neighbour_eq_iff, axisOf]
  constructor
  · intro h
    omega
  · rintro (h | rfl)
    · omega
    · have hround : neighbour (2 ^ 63 - 1) = 2 ^ 63 := by decide
      rw [hround]
      decide

namespace Parser

variable {registry : Registry} {name : String} {n : Nat}

def inputLine (name : String) (n : Nat) : List Char :=
  ("Input " ++ name ++ "(" ++ toString n ++ ")").toList

theorem tokens_inputLine (hname : IsToken name.toList) :
    tokens (inputLine name n) = ["Input".toList, name.toList, Nat.toDigits 10 n] := by
  obtain ⟨hne, hclean⟩ := hname
  have hline : inputLine name n
      = "Input".toList ++ ' ' :: (name.toList ++ '(' :: (Nat.toDigits 10 n ++ [')'])) := by
    rw [inputLine, String.toList_append, String.toList_append, String.toList_append,
      String.toList_append, toList_toString]
    simp
  have hdigits : ∀ c ∈ Nat.toDigits 10 n, isDelimiter c = false :=
    fun c hmem => isDelimiter_of_isDigit (isDigit_of_mem_toDigits hmem)
  have hinput : ∀ c ∈ "Input".toList, isDelimiter c = false := by
    simp [isDelimiter]
  have hend : ∀ {c : Char} (rest : List Char), isDelimiter c = true →
      (c :: rest).head?.all isDelimiter = true := fun _ hc => hc
  have hspace : isDelimiter ' ' = true := rfl
  have hopen : isDelimiter '(' = true := rfl
  have hclose : isDelimiter ')' = true := rfl
  rw [hline, tokens_of_run (by simp) hinput (hend _ hspace), tokens_of_gap hspace,
    tokens_of_run hne hclean (hend _ hopen), tokens_of_gap hopen,
    tokens_of_run Nat.toDigits_ne_nil hdigits (hend _ hclose), tokens_of_gap hclose]
  rfl

theorem accepts_inputLine (hregistry : registry.get? "Input" = some Catalog.input)
    (hname : IsToken name.toList) (hn : n < 2 ^ 63) (scope : Scope) (fresh : Nat) :
    Scope.Accepts registry scope fresh (tokens (inputLine name n)) name.toList
      (.control (Patch.axisOf n)) [] := by
  have hint : Single.toIntSaturating (-0x8000000000000000) 0x7FFFFFFFFFFFFFFF (ofNat n)
      = Patch.axisOf n := by
    rw [toIntSaturating_ofNat (by omega), Patch.axisOf]
    omega
  have hdenotes : scope.Denotes fresh .int (Nat.toDigits 10 n) (.int (Patch.axisOf n)) := by
    rw [← hint]
    exact .int (numberOfToken_toDigits n)
  have hbinds : scope.Binds fresh Catalog.input.params [Nat.toDigits 10 n]
      [.int (Patch.axisOf n)] := .cons hdenotes .nil
  rw [tokens_inputLine hname]
  exact .intro hregistry (Scope.fits_of_binds hbinds) hbinds rfl

theorem addLine_inputLine (parser : Parser)
    (hregistry : registry.get? "Input" = some Catalog.input) (hname : IsToken name.toList)
    (hn : n < 2 ^ 63) :
    (parser.addLine registry (inputLine name n)).1 = .ok (some parser.patch.rack.nodes.size) ∧
      (parser.addLine registry (inputLine name n)).2.patch.table.get? name
        = some parser.patch.rack.nodes.size ∧
      (parser.addLine registry (inputLine name n)).2.patch.rack
        = (parser.patch.rack.add (.control (Patch.axisOf n))).2 := by
  have haccepts := accepts_inputLine hregistry hname hn parser.patch.scope
    parser.patch.rack.nodes.size
  have hopens : OpensLine "Input".toList := by decide
  have hline := not_skipped_of_tokens (tokens_inputLine hname (n := n)) hopens
  obtain ⟨hresult, hdefines⟩ := addLine_of_accepts hline haccepts
  refine ⟨hresult, ?_, hdefines.rack_eq⟩
  rw [hdefines.get?_eq, String.ofList_toList, if_pos rfl]
  rfl

end Parser

theorem Rack.shape_add_control (rack : Rack) (axis : Int) :
    (rack.add (.control axis)).2.shape[rack.nodes.size]?
      = some (.control axis, axisRange axis) := by
  simp [add, getElem?_shape, Device.map, Device.range]

namespace Program

variable {registry : Registry} {name text : String} {n : Nat} {value : Float32}

theorem handsOut_of_shape (hn : n < 2 ^ 63) {options : Options}
    (haxis : options.axis = [((n : Int), value)]) {rack : Rack} (hrack : rack.WellFormed) {id : Nat}
    (hshape : rack.shape[id]? = some (.control (Patch.axisOf n), axisRange (Patch.axisOf n))) :
    rack.HandsOut id options.controls
      (if spacing n ∣ n ∨ n = 2 ^ 63 - 1 then (axisRange n).clamp value else 0) := by
  have hheld : options.controls.get (Patch.axisOf n)
      = if spacing n ∣ n ∨ n = 2 ^ 63 - 1 then (axisRange n).clamp value else 0 := by
    rw [Options.get_controls_axis haxis]
    simp only [Patch.axisOf_eq_iff hn]
  have hcontains : isNaN (options.controls.get (Patch.axisOf n)) = false →
      (axisRange (Patch.axisOf n)).contains (options.controls.get (Patch.axisOf n)) = true := by
    rw [Options.get_controls_axis haxis]
    split
    next heq =>
      rw [heq]
      exact (Range.bounded_axisRange n).contains_clamp
    next => exact fun _ => Range.contains_zero_axisRange _
  rw [← hheld]
  exact hrack.handsOut hshape options.controls hcontains

/--
What an instance hands out that a line defines for the axis of some digits, while the command line
holds the axis of the same digits at a value, and no other axis. It is the value, moved into the
range of the axis, if the number has no more than 24 significant bits, and if it is the largest one.
For any other number the patch means a neighbour of it, which is not held, and the instance hands
out zero.
-/
theorem handsOut_of_axis (hregistry : registry.get? "Input" = some Catalog.input)
    (hname : IsToken name.toList) (hn : n < 2 ^ 63) (hvalue : Single.read text = .ok value)
    (parser : Parser) :
    Options.parse ["--axis", toString n ++ "=" ++ text] = .ok { axis := [(n, value)] } ∧
    ∃ id, (parser.addLine registry (Parser.inputLine name n)).1 = .ok (some id) ∧
      (parser.addLine registry (Parser.inputLine name n)).2.patch.table.get? name = some id ∧
      ∀ options : Options, options.axis = [((n : Int), value)] →
        ∀ rack : Rack, rack.WellFormed →
          rack.shape[id]?
            = (parser.addLine registry (Parser.inputLine name n)).2.patch.rack.shape[id]? →
          rack.HandsOut id options.controls
            (if spacing n ∣ n ∨ n = 2 ^ 63 - 1 then (axisRange n).clamp value else 0) := by
  obtain ⟨hresult, hget, hadd⟩ := Parser.addLine_inputLine parser hregistry hname hn
  refine ⟨Options.parse_axis hn hvalue, _, hresult, hget, ?_⟩
  intro options haxis rack hrack hshape
  rw [hadd, Rack.shape_add_control] at hshape
  exact handsOut_of_shape hn haxis hrack hshape

def single (n : Nat) : Parser :=
  (({} : Parser).addLine Registry.standard (Parser.inputLine "x" n)).2

theorem isToken_single : IsToken "x".toList := by
  simp [IsToken, isDelimiter]

theorem rack_single (hn : n < 2 ^ 63) :
    (single n).patch.rack = (({} : Rack).add (.control (Patch.axisOf n))).2 :=
  (Parser.addLine_inputLine {} rfl isToken_single hn).2.2

theorem wellFormed_single (hn : n < 2 ^ 63) : (single n).patch.rack.WellFormed := by
  have hreachable : (({} : Rack).add (.control (Patch.axisOf n))).2.Reachable :=
    (Rack.Reachable.empty {}).add (by simp [Device.inputs])
  rw [rack_single hn]
  exact hreachable.wellFormed

theorem handsOut_of_axis_largest :
    Registry.standard.get? "Input" = some Catalog.input ∧ IsToken "x".toList ∧
      2 ^ 63 - 1 < 2 ^ 63 ∧ Single.read "0.5" = .ok 0.5 ∧
      Options.parse ["--axis", "9223372036854775807=0.5"]
        = .ok { axis := [(9223372036854775807, 0.5)] } ∧
      ∃ id, (single (2 ^ 63 - 1)).patch.table.get? "x" = some id ∧
        (single (2 ^ 63 - 1)).patch.rack.WellFormed ∧
        (single (2 ^ 63 - 1)).patch.rack.HandsOut id
          ({ axis := [(9223372036854775807, 0.5)] } : Options).controls 0.5 := by
  have hvalue : Single.read "0.5" = .ok 0.5 := rfl
  have hclamp : (axisRange (2 ^ 63 - 1 : Nat)).clamp 0.5 = 0.5 := by decide +kernel
  have hrack := wellFormed_single (n := 2 ^ 63 - 1) (by decide)
  have hregistry : Registry.standard.get? "Input" = some Catalog.input := rfl
  obtain ⟨hparse, id, -, hget, hhandsOut⟩ :=
    handsOut_of_axis (n := 2 ^ 63 - 1) hregistry isToken_single (by decide) hvalue {}
  have hheld := hhandsOut { axis := [(9223372036854775807, 0.5)] } rfl _ hrack rfl
  rw [if_pos (Or.inr rfl), hclamp] at hheld
  exact ⟨hregistry, isToken_single, by decide, hvalue, hparse, id, hget, hrack, hheld⟩

def unheld : Options :=
  { axis := [(16777217, 0.5)] }

def unheldRequest : Request :=
  { timestamp := 0, frames := 2, controls := unheld.controls }

theorem output_of_axis_unheld :
    (({} : Parser).addLine Registry.standard "Input x(16777217)".toList).1 = .ok (some 0) ∧
      Options.parse ["--axis", "16777217=0.5"] = .ok unheld ∧
      (axisRange 16777217).clamp 0.5 = 0.5 ∧
      ((single 16777217).patch.rack.output unheldRequest 0).1 = .ok #[0, 0] ∧
      (#[0, 0] : Block) ≠ #[0.5, 0.5] := by
  have hrack := wellFormed_single (n := 16777217) (by decide)
  have hshape : (single 16777217).patch.rack.shape[0]?
      = some (.control (Patch.axisOf 16777217), axisRange (Patch.axisOf 16777217)) := by
    rw [rack_single (by decide)]
    exact Rack.shape_add_control {} _
  have haxis : unheld.axis = [(((16777217 : Nat) : Int), 0.5)] := rfl
  have hhandsOut := handsOut_of_shape (by decide) haxis hrack hshape
  rw [if_neg (by decide)] at hhandsOut
  obtain ⟨node, hnode, hstale, hnone⟩ : ∃ node, (single 16777217).patch.rack.nodes[0]? = some node ∧
      node.isStale 0 = true ∧ node.recorder = none := ⟨_, rfl, rfl, rfl⟩
  have hroom : ∀ recorder, node.recorder = some recorder →
      recorder.written + unheldRequest.clamped.frames ≤ Wav.maxSamples := by
    rw [hnone]
    exact nofun
  have hcontrols : unheldRequest.controls = unheld.controls := rfl
  obtain ⟨hzero, -⟩ := hhandsOut.output hcontrols hnode hstale hroom
  exact ⟨rfl, by with_unfolding_all rfl, by decide +kernel, hzero (by decide +kernel),
    by decide +kernel⟩

end Program
end PatchSynth
