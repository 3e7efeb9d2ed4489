import PatchSynth.Patch.Parser
import PatchSynth.Proofs.Patch.Number
import PatchSynth.Proofs.Patch.Token

/-!
This module contains the grammar of a patch line, apart from the way in which it is parsed: which
lines define an instance, and what is wrong with all others. A parameter that is refused comes
before everything that is wrong behind it, and the numbers before it have their constants by then.
-/

namespace PatchSynth

abbrev Scope : Type :=
  List Char → Option (Nat × Bool)

namespace Scope

variable {scope : Scope} {fresh : Nat} {kind : ParamKind} {token : List Char}

def Admits (scope : Scope) : ParamKind → List Char → Prop
  | .float, token | .int, token => startsWithDigit token = true
  | .mono, token => startsWithDigit token = true ∨ ∃ id, scope token = some (id, false)
  | .stereo, token => token.head?.any isAlphabetic = true ∧ ∃ id, scope token = some (id, true)
  | .string, _ => False

inductive Misfit (scope : Scope) : ParamKind → List Char → ParseFault → Prop where
  | float {token : List Char} (hdigit : startsWithDigit token = false) :
      Misfit scope .float token .expectingFloat
  | int {token : List Char} (hdigit : startsWithDigit token = false) :
      Misfit scope .int token .expectingInt
  | mono {token : List Char} (hdigit : startsWithDigit token = false) (hname : scope token = none) :
      Misfit scope .mono token .unknownInstance
  | notMono {token : List Char} {id : Nat} (hdigit : startsWithDigit token = false)
      (hname : scope token = some (id, true)) :
      Misfit scope .mono token .notMono
  | noName {token : List Char} (hletter : token.head?.any isAlphabetic = false) :
      Misfit scope .stereo token .expectingModule
  | stereo {token : List Char} (hletter : token.head?.any isAlphabetic = true)
      (hname : scope token = none) :
      Misfit scope .stereo token .unknownInstance
  | notStereo {token : List Char} {id : Nat} (hletter : token.head?.any isAlphabetic = true)
      (hname : scope token = some (id, false)) :
      Misfit scope .stereo token .notStereo
  | string {token : List Char} : Misfit scope .string token .unknownKind

inductive Denotes (scope : Scope) (fresh : Nat) : ParamKind → List Char → ParamValue → Prop where
  | float {token : List Char} {number : Float32} (hnumber : numberOfToken token = some number) :
      Denotes scope fresh .float token (.float number)
  | int {token : List Char} {number : Float32} (hnumber : numberOfToken token = some number) :
      Denotes scope fresh .int token
        (.int (Single.toIntSaturating (-0x8000000000000000) 0x7FFFFFFFFFFFFFFF number))
  | literal {token : List Char} {number : Float32} (hnumber : numberOfToken token = some number) :
      Denotes scope fresh .mono token (.mono fresh)
  | mono {token : List Char} {id : Nat} (hdigit : startsWithDigit token = false)
      (hname : scope token = some (id, false)) :
      Denotes scope fresh .mono token (.mono id)
  | stereo {token : List Char} {id : Nat} (hletter : token.head?.any isAlphabetic = true)
      (hname : scope token = some (id, true)) :
      Denotes scope fresh .stereo token (.stereo id)

def Fits (scope : Scope) : List ParamSpec → List (List Char) → Prop :=
  List.Forall₂ fun param token => scope.Admits param.kind token

def literalOf (kind : ParamKind) (token : List Char) : Option Float32 :=
  if kind = .mono then numberOfToken token else none

def literals (params : List ParamSpec) (tokens : List (List Char)) : List Float32 :=
  (params.zip tokens).filterMap fun (param, token) => literalOf param.kind token

inductive Binds (scope : Scope) :
    Nat → List ParamSpec → List (List Char) → List ParamValue → Prop where
  | nil {fresh : Nat} : Binds scope fresh [] [] []
  | cons {fresh : Nat} {param : ParamSpec} {params : List ParamSpec} {token : List Char}
      {tokens : List (List Char)} {value : ParamValue} {values : List ParamValue}
      (hvalue : scope.Denotes fresh param.kind token value)
      (hrest : Binds scope (fresh + (literalOf param.kind token).toList.length) params tokens
        values) :
      Binds scope fresh (param :: params) (token :: tokens) (value :: values)

/--
Whether the tokens of a line define an instance: its name, the device that its type makes of its
parameters, and the numbers among them that get constants of their own.
-/
inductive Accepts (registry : Registry) (scope : Scope) (fresh : Nat) :
    List (List Char) → List Char → Device Nat → List Float32 → Prop where
  | intro {typeToken name : List Char} {tokens : List (List Char)} {descriptor : Descriptor}
      {values : List ParamValue} {device : Device Nat}
      (htype : registry.get? (String.ofList typeToken) = some descriptor)
      (hfits : scope.Fits descriptor.params tokens)
      (hvalues : scope.Binds fresh descriptor.params tokens values)
      (hdevice : descriptor.factory { values } = .ok device) :
      Accepts registry scope fresh (typeToken :: name :: tokens) name device
        (literals descriptor.params tokens)

/--
The first thing that is wrong with the tokens of a line, the token at which it is found, and the
numbers before it that have got their constants. The type comes first, then the name, then the
parameters from left to right with their number, and what the type makes of them comes last.
-/
inductive Refuses (registry : Registry) (scope : Scope) (fresh : Nat) :
    List (List Char) → ParseFault → List Char → List Float32 → Prop where
  | unknownType {tokens : List (List Char)}
      (htype : registry.get? (String.ofList (tokens.headD [])) = none) :
      Refuses registry scope fresh tokens .unknownType (tokens.headD []) []
  | missingName {tokens : List (List Char)} {descriptor : Descriptor}
      (htype : registry.get? (String.ofList (tokens.headD [])) = some descriptor)
      (hname : tokens.tail = []) :
      Refuses registry scope fresh tokens .missingName (tokens.headD []) []
  | param {typeToken name token : List Char} {before after : List (List Char)}
      {descriptor : Descriptor} {front rest : List ParamSpec} {param : ParamSpec}
      {fault : ParseFault} (htype : registry.get? (String.ofList typeToken) = some descriptor)
      (hparams : descriptor.params = front ++ param :: rest) (hfits : scope.Fits front before)
      (hmisfit : scope.Misfit param.kind token fault) :
      Refuses registry scope fresh (typeToken :: name :: (before ++ token :: after)) fault token
        (literals front before)
  | surplus {typeToken name token : List Char} {before after : List (List Char)}
      {descriptor : Descriptor} (htype : registry.get? (String.ofList typeToken) = some descriptor)
      (hfits : scope.Fits descriptor.params before) :
      Refuses registry scope fresh (typeToken :: name :: (before ++ token :: after)) .tooManyParams
        token (literals descriptor.params before)
  | missing {typeToken name : List Char} {tokens : List (List Char)} {descriptor : Descriptor}
      {front rest : List ParamSpec} {param : ParamSpec}
      (htype : registry.get? (String.ofList typeToken) = some descriptor)
      (hparams : descriptor.params = front ++ param :: rest) (hfits : scope.Fits front tokens) :
      Refuses registry scope fresh (typeToken :: name :: tokens) .tooFewParams
        (tokens.getLastD name) (literals front tokens)
  | factory {typeToken name : List Char} {tokens : List (List Char)} {descriptor : Descriptor}
      {values : List ParamValue} {cause : Error}
      (htype : registry.get? (String.ofList typeToken) = some descriptor)
      (hfits : scope.Fits descriptor.params tokens)
      (hvalues : scope.Binds fresh descriptor.params tokens values)
      (hcause : descriptor.factory { values } = .error cause) :
      Refuses registry scope fresh (typeToken :: name :: tokens) (.instantiate cause) typeToken
        (literals descriptor.params tokens)

theorem exists_number (hdigit : startsWithDigit token = true) :
    ∃ number, numberOfToken token = some number :=
  ⟨_, numberOfToken_of_digit hdigit⟩

theorem startsWithDigit_of_number {number : Float32} (h : numberOfToken token = some number) :
    startsWithDigit token = true := by
  rw [← Bool.not_eq_false]
  intro hdigit
  rw [numberOfToken_eq_none hdigit] at h
  cases h

theorem exists_denotes (fresh : Nat) (h : scope.Admits kind token) :
    ∃ value, scope.Denotes fresh kind token value := by
  cases kind with
  | float =>
    obtain ⟨number, hnumber⟩ := exists_number h
    exact ⟨_, Denotes.float hnumber⟩
  | int =>
    obtain ⟨number, hnumber⟩ := exists_number h
    exact ⟨_, Denotes.int hnumber⟩
  | mono =>
    cases hdigit : startsWithDigit token with
    | true =>
      obtain ⟨number, hnumber⟩ := exists_number hdigit
      exact ⟨_, Denotes.literal hnumber⟩
    | false =>
      obtain hother | ⟨id, hname⟩ := h
      · rw [hdigit] at hother
        cases hother
      · exact ⟨_, Denotes.mono hdigit hname⟩
  | stereo =>
    obtain ⟨hletter, id, hname⟩ := h
    exact ⟨_, Denotes.stereo hletter hname⟩
  | string => cases h

theorem admits_or_misfit (scope : Scope) (kind : ParamKind) (token : List Char) :
    scope.Admits kind token ∨ ∃ fault, scope.Misfit kind token fault := by
  cases kind with
  | float =>
    cases hdigit : startsWithDigit token with
    | true => exact Or.inl hdigit
    | false => exact Or.inr ⟨_, Misfit.float hdigit⟩
  | int =>
    cases hdigit : startsWithDigit token with
    | true => exact Or.inl hdigit
    | false => exact Or.inr ⟨_, Misfit.int hdigit⟩
  | mono =>
    cases hdigit : startsWithDigit token with
    | true => exact Or.inl (Or.inl hdigit)
    | false =>
      match hname : scope token with
      | none => exact Or.inr ⟨_, Misfit.mono hdigit hname⟩
      | some (id, true) => exact Or.inr ⟨_, Misfit.notMono hdigit hname⟩
      | some (id, false) => exact Or.inl (Or.inr ⟨id, hname⟩)
  | stereo =>
    cases hletter : token.head?.any isAlphabetic with
    | false => exact Or.inr ⟨_, Misfit.noName hletter⟩
    | true =>
      match hname : scope token with
      | none => exact Or.inr ⟨_, Misfit.stereo hletter hname⟩
      | some (id, true) => exact Or.inl ⟨hletter, id, hname⟩
      | some (id, false) => exact Or.inr ⟨_, Misfit.notStereo hletter hname⟩
  | string => exact Or.inr ⟨_, Misfit.string⟩

theorem exists_binds {params : List ParamSpec} {tokens : List (List Char)}
    (h : scope.Fits params tokens) (fresh : Nat) :
    ∃ values, scope.Binds fresh params tokens values := by
  induction h generalizing fresh with
  | nil => exact ⟨[], Binds.nil⟩
  | cons hfirst _ ih =>
    obtain ⟨value, hvalue⟩ := exists_denotes fresh hfirst
    obtain ⟨values, hvalues⟩ := ih (fresh + _)
    exact ⟨value :: values, Binds.cons hvalue hvalues⟩

theorem admits_of_denotes {value : ParamValue} (h : scope.Denotes fresh kind token value) :
    scope.Admits kind token := by
  cases h with
  | float hnumber => exact startsWithDigit_of_number hnumber
  | int hnumber => exact startsWithDigit_of_number hnumber
  | literal hnumber => exact Or.inl (startsWithDigit_of_number hnumber)
  | mono _ hname => exact Or.inr ⟨_, hname⟩
  | stereo hletter hname => exact ⟨hletter, _, hname⟩

theorem fits_of_binds {params : List ParamSpec} {tokens : List (List Char)}
    {values : List ParamValue} (h : scope.Binds fresh params tokens values) :
    scope.Fits params tokens := by
  induction h with
  | nil => exact List.Forall₂.nil
  | cons hvalue _ ih => exact List.Forall₂.cons (admits_of_denotes hvalue) ih

theorem fits_cases (scope : Scope) (params : List ParamSpec) (tokens : List (List Char)) :
    scope.Fits params tokens ∨
      (∃ front param rest before token after fault, params = front ++ param :: rest ∧
        tokens = before ++ token :: after ∧ scope.Fits front before ∧
        scope.Misfit param.kind token fault) ∨
      (∃ before token after, tokens = before ++ token :: after ∧ scope.Fits params before) ∨
      ∃ front param rest, params = front ++ param :: rest ∧ scope.Fits front tokens := by
  induction params generalizing tokens with
  | nil =>
    cases tokens with
    | nil => exact Or.inl List.Forall₂.nil
    | cons token tokens =>
      exact Or.inr (Or.inr (Or.inl ⟨[], token, tokens, rfl, List.Forall₂.nil⟩))
  | cons param params ih =>
    cases tokens with
    | nil => exact Or.inr (Or.inr (Or.inr ⟨[], param, params, rfl, List.Forall₂.nil⟩))
    | cons token tokens =>
      obtain hadmits | ⟨fault, hmisfit⟩ := scope.admits_or_misfit param.kind token
      · obtain hfits | ⟨front, next, rest, before, found, after, fault, rfl, rfl, hfits, hmisfit⟩ |
          ⟨before, found, after, rfl, hfits⟩ | ⟨front, next, rest, rfl, hfits⟩ := ih tokens
        · exact Or.inl (List.Forall₂.cons hadmits hfits)
        · exact Or.inr (Or.inl ⟨param :: front, next, rest, token :: before, found, after, fault,
            rfl, rfl, List.Forall₂.cons hadmits hfits, hmisfit⟩)
        · exact Or.inr (Or.inr (Or.inl ⟨token :: before, found, after, rfl,
            List.Forall₂.cons hadmits hfits⟩))
        · exact Or.inr (Or.inr (Or.inr ⟨param :: front, next, rest, rfl,
            List.Forall₂.cons hadmits hfits⟩))
      · exact Or.inr (Or.inl ⟨[], param, params, [], token, tokens, fault, rfl, rfl,
          List.Forall₂.nil, hmisfit⟩)

theorem accepts_or_refuses (registry : Registry) (scope : Scope) (fresh : Nat)
    (tokens : List (List Char)) :
    (∃ name device numbers, Accepts registry scope fresh tokens name device numbers) ∨
      ∃ fault token numbers, Refuses registry scope fresh tokens fault token numbers := by
  cases htype : registry.get? (String.ofList (tokens.headD [])) with
  | none => exact Or.inr ⟨_, _, _, Refuses.unknownType htype⟩
  | some descriptor =>
    match tokens, htype with
    | [], htype => exact Or.inr ⟨_, _, _, Refuses.missingName htype rfl⟩
    | [_], htype => exact Or.inr ⟨_, _, _, Refuses.missingName htype rfl⟩
    | typeToken :: name :: tokens, htype =>
      obtain hfits | ⟨front, param, rest, before, token, after, fault, hparams, rfl, hfits,
        hmisfit⟩ | ⟨before, token, after, rfl, hfits⟩ | ⟨front, param, rest, hparams, hfits⟩ :=
        scope.fits_cases descriptor.params tokens
      · obtain ⟨values, hvalues⟩ := exists_binds hfits fresh
        cases hfactory : descriptor.factory { values } with
        | error cause => exact Or.inr ⟨_, _, _, Refuses.factory htype hfits hvalues hfactory⟩
        | ok device => exact Or.inl ⟨_, _, _, Accepts.intro htype hfits hvalues hfactory⟩
      · exact Or.inr ⟨_, _, _, Refuses.param htype hparams hfits hmisfit⟩
      · exact Or.inr ⟨_, _, _, Refuses.surplus htype hfits⟩
      · exact Or.inr ⟨_, _, _, Refuses.missing htype hparams hfits⟩

end Scope
end PatchSynth
