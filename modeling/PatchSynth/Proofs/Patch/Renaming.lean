import PatchSynth.Catalog
import PatchSynth.Proofs.Patch.Retoken

/-!
This module contains the renaming of the instances that a line defines and refers to. If the new
names stand for the same nodes as the old ones, the line still follows the grammar, with the same
device and the same numbers.
-/

namespace PatchSynth

def IsName (token : List Char) : Prop :=
  token ≠ [] ∧ ∀ c ∈ token, isAlphabetic c = true

theorem le_toNat_of_isAlphabetic {c : Char} (h : isAlphabetic c = true) : 0x41 ≤ c.toNat := by
  have hfirst : alphabeticRanges.all (fun range => 0x41 ≤ range.1) = true := by decide +kernel
  obtain ⟨range, hmem, hrange⟩ := List.any_eq_true.1 h
  have hle := List.all_eq_true.1 hfirst range hmem
  simp only [Bool.and_eq_true, decide_eq_true_eq] at hrange hle
  omega

theorem isDelimiter_of_isAlphabetic {c : Char} (h : isAlphabetic c = true) :
    isDelimiter c = false := by
  -- All delimiters come before the first letter.
  have hle := le_toNat_of_isAlphabetic h
  rw [← Bool.not_eq_true]
  intro hc
  simp only [isDelimiter, Bool.or_eq_true, beq_iff_eq] at hc
  obtain (((((rfl | rfl) | rfl) | rfl) | rfl) | rfl) | rfl := hc <;> revert hle <;> decide

namespace IsName

variable {token : List Char}

theorem isToken (h : IsName token) : IsToken token :=
  ⟨h.1, fun c hc => isDelimiter_of_isAlphabetic (h.2 c hc)⟩

theorem startsWithDigit_eq (h : IsName token) : startsWithDigit token = false := by
  obtain ⟨hne, hletters⟩ := h
  cases token with
  | nil => exact absurd rfl hne
  | cons c token =>
    have hle := le_toNat_of_isAlphabetic (hletters c List.mem_cons_self)
    rw [startsWithDigit, List.head?_cons, Option.any_some, ← Bool.not_eq_true, Char.isDigit]
    intro hdigit
    simp only [Bool.and_eq_true, decide_eq_true_eq] at hdigit
    have hless : c.toNat ≤ 57 := hdigit.2
    omega

theorem startsWithLetter (h : IsName token) : token.head?.any isAlphabetic = true := by
  obtain ⟨hne, hletters⟩ := h
  cases token with
  | nil => exact absurd rfl hne
  | cons c token => exact hletters c List.mem_cons_self

end IsName

abbrev Renaming : Type :=
  List (List Char × List Char)

namespace Renaming

def of (names : Renaming) (name : List Char) : List Char :=
  (names.lookup name).getD name

def rename (names : Renaming) (kind : ParamKind) (token : List Char) : List Char :=
  match kind with
  | .mono => if startsWithDigit token then token else names.of token
  | .stereo => names.of token
  | _ => token

def renameAll (names : Renaming) (params : List ParamSpec) (tokens : List (List Char)) :
    List (List Char) :=
  (params.zip tokens).map fun (param, token) => names.rename param.kind token

def respell (names : Renaming) (registry : Registry) (new : List Char) :
    List (List Char) → List (List Char)
  | typeToken :: name :: tokens =>
    match registry.get? (String.ofList typeToken) with
    | some descriptor => typeToken :: new :: names.renameAll descriptor.params tokens
    | none => typeToken :: name :: tokens
  | tokens => tokens

def Carries (names : Renaming) (scope twin : Scope) : Prop :=
  ∀ token found, scope token = some found →
    IsName (names.of token) ∧ twin (names.of token) = some found

variable {names : Renaming} {scope twin : Scope} {fresh : Nat} {kind : ParamKind}
  {token : List Char} {value : ParamValue} {params : List ParamSpec} {tokens : List (List Char)}
  {values : List ParamValue} {registry : Registry}

theorem of_cons (names : Renaming) (name new token : List Char) :
    of ((name, new) :: names) token = if token = name then new else names.of token := by
  rw [of, List.lookup_cons]
  by_cases h : token = name
  · simp [h]
  · simp [h, beq_false_of_ne h, of]

theorem rename_of_number (kind : ParamKind) {number : Float32}
    (h : numberOfToken token = some number) (hkind : kind ≠ .stereo) :
    names.rename kind token = token := by
  cases kind with
  | mono => rw [rename, if_pos (Scope.startsWithDigit_of_number h)]
  | stereo => exact absurd rfl hkind
  | _ => rfl

theorem rename_of_name (h : startsWithDigit token = false) :
    names.rename .mono token = names.of token := by
  rw [rename, h, if_neg (by simp)]

theorem Carries.denotes (h : names.Carries scope twin)
    (hvalue : scope.Denotes fresh kind token value) :
    twin.Denotes fresh kind (names.rename kind token) value ∧
      Scope.literalOf kind (names.rename kind token) = Scope.literalOf kind token := by
  cases hvalue with
  | float hnumber =>
    rw [rename_of_number .float hnumber (by simp)]
    exact ⟨Scope.Denotes.float hnumber, rfl⟩
  | int hnumber =>
    rw [rename_of_number .int hnumber (by simp)]
    exact ⟨Scope.Denotes.int hnumber, rfl⟩
  | literal hnumber =>
    rw [rename_of_number .mono hnumber (by simp)]
    exact ⟨Scope.Denotes.literal hnumber, rfl⟩
  | mono hdigit hname =>
    obtain ⟨hnew, htwin⟩ := h token _ hname
    rw [rename_of_name hdigit, Scope.literalOf, Scope.literalOf, numberOfToken_eq_none hdigit,
      numberOfToken_eq_none hnew.startsWithDigit_eq]
    exact ⟨Scope.Denotes.mono hnew.startsWithDigit_eq htwin, rfl⟩
  | stereo hletter hname =>
    obtain ⟨hnew, htwin⟩ := h token _ hname
    rw [Scope.literalOf, Scope.literalOf, if_neg (by simp), if_neg (by simp)]
    exact ⟨Scope.Denotes.stereo hnew.startsWithLetter htwin, rfl⟩

theorem Carries.binds (h : names.Carries scope twin)
    (hvalues : scope.Binds fresh params tokens values) :
    twin.Binds fresh params (names.renameAll params tokens) values ∧
      Scope.literals params (names.renameAll params tokens) = Scope.literals params tokens := by
  induction hvalues with
  | nil => exact ⟨Scope.Binds.nil, rfl⟩
  | @cons fresh param params token tokens value values hvalue _ ih =>
    obtain ⟨hfirst, hliteral⟩ := h.denotes hvalue
    obtain ⟨hrest, hliterals⟩ := ih
    have hcons : names.renameAll (param :: params) (token :: tokens)
        = names.rename param.kind token :: names.renameAll params tokens := rfl
    rw [hcons, Patch.literals_cons, Patch.literals_cons, hliteral, hliterals]
    rw [← hliteral] at hrest
    exact ⟨Scope.Binds.cons hfirst hrest, rfl⟩

theorem Carries.accepts (h : names.Carries scope twin) {name : List Char} {device : Device Nat}
    {numbers : List Float32}
    (haccepts : Scope.Accepts registry scope fresh tokens name device numbers)
    (new : List Char) :
    Scope.Accepts registry twin fresh (names.respell registry new tokens) new device numbers := by
  cases haccepts with
  | @intro typeToken _ tokens descriptor values _ htype _ hvalues hdevice =>
    obtain ⟨hbinds, hliterals⟩ := h.binds hvalues
    rw [← hliterals, respell, htype]
    exact Scope.Accepts.intro htype (Scope.fits_of_binds hbinds) hbinds hdevice

theorem length_respell (names : Renaming) {name : List Char} {device : Device Nat}
    {numbers : List Float32}
    (h : Scope.Accepts registry scope fresh tokens name device numbers) (new : List Char) :
    (names.respell registry new tokens).length = tokens.length := by
  cases h with
  | @intro typeToken _ tokens descriptor _ _ htype hfits =>
    have hlength : descriptor.params.length = tokens.length := hfits.length_eq
    simp [respell, htype, renameAll, hlength]

theorem isToken_of_mem_respell (hnames : ∀ token, IsToken token → IsToken (names.of token))
    {new : List Char} (hnew : IsToken new) (htokens : ∀ token ∈ tokens, IsToken token) :
    ∀ token ∈ names.respell registry new tokens, IsToken token := by
  unfold respell
  split
  next typeToken name tokens =>
    rw [List.forall_mem_cons, List.forall_mem_cons] at htokens
    obtain ⟨htype, hname, htokens⟩ := htokens
    split
    · rw [List.forall_mem_cons, List.forall_mem_cons]
      refine ⟨htype, hnew, ?_⟩
      intro token hmem
      obtain ⟨⟨param, old⟩, hold, rfl⟩ := List.mem_map.1 hmem
      have hold := htokens old (List.of_mem_zip hold).2
      dsimp only
      unfold rename
      split
      · split
        · exact hold
        · exact hnames old hold
      · exact hnames old hold
      · exact hold
    · rw [List.forall_mem_cons, List.forall_mem_cons]
      exact ⟨htype, hname, htokens⟩
  next => exact htokens

end Renaming

def Registry.OpensLines (registry : Registry) : Prop :=
  ∀ typeToken descriptor, registry.get? (String.ofList typeToken) = some descriptor →
    OpensLine typeToken

theorem Scope.Accepts.exists_tokens {registry : Registry} {scope : Scope} {fresh : Nat}
    {tokens : List (List Char)} {name : List Char} {device : Device Nat} {numbers : List Float32}
    (h : Scope.Accepts registry scope fresh tokens name device numbers)
    (hopens : registry.OpensLines) :
    ∃ typeToken rest, tokens = typeToken :: name :: rest ∧ OpensLine typeToken := by
  cases h with
  | intro htype => exact ⟨_, _, rfl, hopens _ _ htype⟩

theorem Registry.opensLines_standard : standard.OpensLines := by
  intro typeToken descriptor h
  unfold get? at h
  have hname := List.find?_some h
  have hmem := mem_ofList (List.mem_of_find?_eq_some h)
  have htoken : typeToken = descriptor.typeName.toList := by
    rw [beq_iff_eq.1 hname, String.toList_ofList]
  simp only [List.mem_cons, List.not_mem_nil, or_false] at hmem
  subst htoken
  clear h hname
  obtain rfl | rfl | rfl | rfl | rfl | rfl | rfl | rfl | rfl | rfl := hmem <;> decide

end PatchSynth
