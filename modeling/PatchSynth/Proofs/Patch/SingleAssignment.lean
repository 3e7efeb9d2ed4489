import PatchSynth.Player
import PatchSynth.Proofs.Patch.Renaming

/-!
This module contains the rewriting of the lines of a patch into lines that define every name once. A
reference means the nearest definition above its line, so every definition can have a name of its
own, and the parser builds the same nodes from the lines before and after.
-/

namespace PatchSynth

/--
New names, one for each definition of a patch, and none of them the name of the output.
-/
structure Naming where
  fresh : Nat → List Char
  isName_fresh : ∀ index, IsName (fresh index)
  injective : Function.Injective fresh
  ne_output : ∀ index, fresh index ≠ Player.outputName.toList

def definedName (line : List Char) : Option (List Char) :=
  if isComment line then none else (tokens line)[1]?

def definesOutput (lines : List (List Char)) : Bool :=
  lines.any fun line => definedName line == some Player.outputName.toList

namespace Naming

def nameOf (naming : Naming) (count : Nat) (name : List Char) (rest : List (List Char)) :
    List Char :=
  if name = Player.outputName.toList ∧ definesOutput rest = false then
    name
  else
    naming.fresh count

def assignFrom (naming : Naming) (registry : Registry) (count : Nat) (names : Renaming) :
    List (List Char) → List (List Char)
  | [] => []
  | line :: rest =>
    match definedName line with
    | none => line :: naming.assignFrom registry count names rest
    | some name =>
      let new := naming.nameOf count name rest
      retoken line (names.respell registry new (tokens line))
        :: naming.assignFrom registry (count + 1) ((name, new) :: names) rest

def assign (naming : Naming) (registry : Registry) (lines : List (List Char)) :
    List (List Char) :=
  naming.assignFrom registry 0 [] lines

end Naming

theorem isName_output : IsName Player.outputName.toList := by
  refine ⟨by decide, List.all_eq_true.1 ?_⟩
  decide

theorem definedName_of_skipped {line : List Char} (h : Skipped line) : definedName line = none := by
  rw [definedName, isComment_iff.2 h, if_pos rfl]

theorem definedName_of_tokens {line first name : List Char} {rest : List (List Char)}
    (hline : ¬ Skipped line) (h : tokens line = first :: name :: rest) :
    definedName line = some name := by
  rw [definedName, if_neg (mt isComment_iff.1 hline), h]
  rfl

theorem definesOutput_cons (line : List Char) (rest : List (List Char)) :
    definesOutput (line :: rest) = false ↔
      definedName line ≠ some Player.outputName.toList ∧ definesOutput rest = false := by
  simp [definesOutput]

structure Naming.Tracks (naming : Naming) (count : Nat) (names : Renaming)
    (rest : List (List Char)) (patch twin : Patch) : Prop where
  rack_eq : twin.rack = patch.rack
  anonymous_eq : twin.table.anonymous = patch.table.anonymous
  bound : ∀ name id, patch.table.get? (String.ofList name) = some id →
    ∃ new, names.lookup name = some new ∧ twin.table.get? (String.ofList new) = some id
  used : ∀ name new, names.lookup name = some new →
    (∃ index < count, new = naming.fresh index) ∨
      new = Player.outputName.toList ∧ definesOutput rest = false
  output : definesOutput rest = false →
    ∀ new, names.lookup Player.outputName.toList = some new → new = Player.outputName.toList

namespace Parser

variable {parser : Parser} {registry : Registry} {line : List Char} {rest : List (List Char)}

theorem addLines_cons {found : Option Nat} (h : (parser.addLine registry line).1 = .ok found) :
    parser.addLines registry (line :: rest)
      = (parser.addLine registry line).2.addLines registry rest := by
  rw [addLines]
  cases hline : parser.addLine registry line with
  | mk result next =>
    rw [hline] at h
    cases h
    rfl

theorem exists_ok_of_addLines (h : (parser.addLines registry (line :: rest)).1 = .ok ()) :
    ∃ found, (parser.addLine registry line).1 = .ok found := by
  rw [addLines] at h
  cases hline : parser.addLine registry line with
  | mk result next =>
    cases result with
    | error error =>
      rw [hline] at h
      cases h
    | ok found => exact ⟨found, rfl⟩

end Parser

namespace Naming

variable {naming : Naming} {registry : Registry} {count : Nat} {names : Renaming}
  {line name new : List Char} {rest all : List (List Char)} {patch twin next copy : Patch}
  {device : Device Nat} {numbers : List Float32}

theorem nameOf_cases (naming : Naming) (count : Nat) (name : List Char)
    (rest : List (List Char)) :
    naming.nameOf count name rest = naming.fresh count ∨
      naming.nameOf count name rest = Player.outputName.toList ∧
        name = Player.outputName.toList ∧ definesOutput rest = false := by
  unfold nameOf
  split
  next h => exact Or.inr ⟨h.1, h⟩
  next => exact Or.inl rfl

theorem isName_nameOf (naming : Naming) (count : Nat) (name : List Char)
    (rest : List (List Char)) : IsName (naming.nameOf count name rest) := by
  obtain hfresh | ⟨houtput, -⟩ := naming.nameOf_cases count name rest
  · rw [hfresh]
    exact naming.isName_fresh count
  · rw [houtput]
    exact isName_output

theorem tracks_empty (naming : Naming) (lines : List (List Char)) (files : Files) :
    naming.Tracks 0 [] lines { rack := { files } } { rack := { files } } where
  rack_eq := rfl
  anonymous_eq := rfl
  bound := by
    intro name id hid
    cases hid
  used := by
    intro name new hnew
    cases hnew
  output := by
    intro _ new hnew
    cases hnew

namespace Tracks

theorem isName_of_lookup (h : naming.Tracks count names rest patch twin)
    (hnew : names.lookup name = some new) : IsName new := by
  obtain ⟨index, -, rfl⟩ | ⟨rfl, -⟩ := h.used name new hnew
  · exact naming.isName_fresh index
  · exact isName_output

theorem isToken_of (h : naming.Tracks count names rest patch twin) (token : List Char)
    (htoken : IsToken token) : IsToken (names.of token) := by
  unfold Renaming.of
  cases hnew : names.lookup token with
  | none => exact htoken
  | some new => exact (h.isName_of_lookup hnew).isToken

theorem carries (h : naming.Tracks count names rest patch twin) :
    names.Carries patch.scope twin.scope := by
  intro token found hfound
  obtain ⟨id, hid, rfl⟩ := Option.map_eq_some_iff.1 hfound
  obtain ⟨new, hnew, htwin⟩ := h.bound token id hid
  have hof : names.of token = new := by rw [Renaming.of, hnew, Option.getD_some]
  rw [hof, Patch.scope, htwin, h.rack_eq]
  exact ⟨h.isName_of_lookup hnew, rfl⟩

theorem skip (h : naming.Tracks count names (line :: rest) patch twin)
    (hline : definedName line = none) : naming.Tracks count names rest patch twin where
  rack_eq := h.rack_eq
  anonymous_eq := h.anonymous_eq
  bound := h.bound
  used := by
    intro name new hnew
    obtain hfresh | ⟨houtput, hrest⟩ := h.used name new hnew
    · exact Or.inl hfresh
    · exact Or.inr ⟨houtput, ((definesOutput_cons line rest).1 hrest).2⟩
  output := by
    intro hrest
    apply h.output
    rw [definesOutput_cons, hline]
    exact ⟨by simp, hrest⟩

theorem ne_nameOf (h : naming.Tracks count names (line :: rest) patch twin)
    (hline : definedName line = some name) {other : List Char}
    (hnew : names.lookup other = some new) : new ≠ naming.nameOf count name rest := by
  obtain ⟨index, hindex, rfl⟩ | ⟨rfl, hrest⟩ := h.used other new hnew
  · obtain hfresh | ⟨houtput, -⟩ := naming.nameOf_cases count name rest
    · rw [hfresh]
      exact fun heq => absurd (naming.injective heq) (by omega)
    · rw [houtput]
      exact naming.ne_output index
  · obtain hfresh | ⟨-, rfl, -⟩ := naming.nameOf_cases count name rest
    · rw [hfresh]
      exact Ne.symm (naming.ne_output count)
    · -- The line would be a definition of the output after the last one.
      exact absurd hline ((definesOutput_cons line rest).1 hrest).1

theorem define (h : naming.Tracks count names (line :: rest) patch twin)
    (hline : definedName line = some name)
    (hdefines : patch.Defines next (String.ofList name) device numbers)
    (htwin : twin.Defines copy (String.ofList (naming.nameOf count name rest)) device numbers) :
    naming.Tracks (count + 1) ((name, naming.nameOf count name rest) :: names) rest next copy where
  rack_eq := by rw [htwin.rack_eq, hdefines.rack_eq, h.rack_eq]
  anonymous_eq := by
    rw [htwin.anonymous_eq, hdefines.anonymous_eq, h.rack_eq, h.anonymous_eq]
  bound := by
    intro other id hid
    rw [hdefines.get?_eq] at hid
    rw [List.lookup_cons]
    by_cases hother : other = name
    · subst hother
      rw [if_pos rfl] at hid
      refine ⟨_, by rw [BEq.rfl], ?_⟩
      rw [htwin.get?_eq, if_pos rfl, h.rack_eq, hid]
    · rw [if_neg (mt String.ofList_injective hother)] at hid
      obtain ⟨new, hnew, hbound⟩ := h.bound other id hid
      refine ⟨new, by rw [beq_false_of_ne hother, hnew], ?_⟩
      rw [htwin.get?_eq, if_neg (mt String.ofList_injective (h.ne_nameOf hline hnew)), hbound]
  used := by
    intro other new hnew
    rw [List.lookup_cons] at hnew
    split at hnew
    next =>
      cases hnew
      obtain hfresh | ⟨houtput, -, hrest⟩ := naming.nameOf_cases count name rest
      · exact Or.inl ⟨count, Nat.lt_succ_self count, hfresh⟩
      · exact Or.inr ⟨houtput, hrest⟩
    next =>
      obtain ⟨index, hindex, hfresh⟩ | ⟨houtput, hrest⟩ := h.used other new hnew
      · exact Or.inl ⟨index, Nat.lt_succ_of_lt hindex, hfresh⟩
      · exact Or.inr ⟨houtput, ((definesOutput_cons line rest).1 hrest).2⟩
  output := by
    intro hrest new hnew
    rw [List.lookup_cons] at hnew
    split at hnew
    next heq =>
      cases hnew
      rw [nameOf, if_pos ⟨(beq_iff_eq.1 heq).symm, hrest⟩]
      exact (beq_iff_eq.1 heq).symm
    next hne =>
      refine h.output ?_ new hnew
      rw [definesOutput_cons, hline]
      exact ⟨fun heq => by simp [Option.some.inj heq] at hne, hrest⟩

theorem addLine_of_accepts {parser other : Parser} (hopens : registry.OpensLines)
    (h : naming.Tracks count names (line :: rest) parser.patch other.patch)
    (hline : ¬ Skipped line)
    (haccepts : Scope.Accepts registry parser.patch.scope parser.patch.rack.nodes.size (tokens line)
      name device numbers) :
    let renamed := retoken line
      (names.respell registry (naming.nameOf count name rest) (tokens line))
    definedName line = some name ∧
    definedName renamed = some (naming.nameOf count name rest) ∧
    (other.addLine registry renamed).1
      = .ok (some (parser.patch.rack.nodes.size + numbers.length)) ∧
    naming.Tracks (count + 1) ((name, naming.nameOf count name rest) :: names) rest
      (parser.addLine registry line).2.patch (other.addLine registry renamed).2.patch := by
  intro renamed
  have hnew := naming.isName_nameOf count name rest
  have hrespelled := h.carries.accepts haccepts (naming.nameOf count name rest)
  -- The new line has the tokens of the grammar only because new names are tokens themselves.
  have htokens : tokens renamed
      = names.respell registry (naming.nameOf count name rest) (tokens line) := by
    apply tokens_retoken
    · exact names.length_respell haccepts _
    · exact Renaming.isToken_of_mem_respell h.isToken_of hnew.isToken fun token => of_mem_tokens
  obtain ⟨typeToken, params, hfound, -⟩ := haccepts.exists_tokens hopens
  obtain ⟨typeToken', params', hfound', hfirst⟩ := hrespelled.exists_tokens hopens
  have hrenamed : ¬ Skipped renamed := not_skipped_of_tokens (htokens.trans hfound') hfirst
  have hother : Scope.Accepts registry other.patch.scope other.patch.rack.nodes.size
      (tokens renamed) (naming.nameOf count name rest) device numbers := by
    rw [htokens, h.rack_eq]
    exact hrespelled
  have hname := definedName_of_tokens hline hfound
  obtain ⟨-, hdefines⟩ := Parser.addLine_of_accepts hline haccepts
  obtain ⟨hresult, htwin⟩ := Parser.addLine_of_accepts hrenamed hother
  rw [h.rack_eq] at hresult
  exact ⟨hname, definedName_of_tokens hrenamed (htokens.trans hfound'), hresult,
    h.define hname hdefines htwin⟩

theorem addLine {parser other : Parser} (hopens : registry.OpensLines)
    (h : naming.Tracks count names (line :: rest) parser.patch other.patch) {found : Option Nat}
    (hok : (parser.addLine registry line).1 = .ok found) :
    ∃ renamed after called,
      naming.assignFrom registry count names (line :: rest)
        = renamed :: naming.assignFrom registry after called rest ∧
      (other.addLine registry renamed).1 = .ok found ∧
      naming.Tracks after called rest (parser.addLine registry line).2.patch
        (other.addLine registry renamed).2.patch ∧
      ((definedName renamed = none ∧ after = count) ∨
        ∃ name, definedName line = some name ∧
          definedName renamed = some (naming.nameOf count name rest) ∧ after = count + 1) := by
  -- A line that is refused is none of those that the hypothesis is about.
  obtain ⟨hline, hresult⟩ | ⟨hline, name, device, numbers, haccepts, hresult⟩ |
    ⟨_, _, _, _, _, hresult⟩ := parser.addLine_cases registry line
  · have hnone := definedName_of_skipped hline
    refine ⟨line, count, names, by rw [assignFrom, hnone], ?_, ?_, Or.inl ⟨hnone, rfl⟩⟩
    · rw [Parser.addLine_of_skipped hline, ← hok, hresult]
    · rw [Parser.addLine_of_skipped hline, Parser.addLine_of_skipped hline]
      exact h.skip hnone
  · obtain ⟨hname, hnew, hother, htracks⟩ := h.addLine_of_accepts hopens hline haccepts
    refine ⟨_, _, _, by rw [assignFrom, hname], ?_, htracks, Or.inr ⟨name, hname, hnew, rfl⟩⟩
    rw [hother, ← hok, hresult]
  · rw [hok] at hresult
    cases hresult

theorem addLines {parser other : Parser} (hopens : registry.OpensLines)
    (h : naming.Tracks count names all parser.patch other.patch)
    (hok : (parser.addLines registry all).1 = .ok ()) :
    (other.addLines registry (naming.assignFrom registry count names all)).1 = .ok () ∧
      ∃ after called, naming.Tracks after called [] (parser.addLines registry all).2.patch
        (other.addLines registry (naming.assignFrom registry count names all)).2.patch := by
  induction all generalizing count names parser other with
  | nil => exact ⟨rfl, count, names, h⟩
  | cons line rest ih =>
    obtain ⟨found, hline⟩ := Parser.exists_ok_of_addLines hok
    obtain ⟨renamed, after, called, hassign, hother, htracks, -⟩ := h.addLine hopens hline
    rw [Parser.addLines_cons hline] at hok ⊢
    rw [hassign, Parser.addLines_cons hother]
    exact ih htracks hok

end Tracks

def Later (naming : Naming) (count : Nat) (lines : List (List Char)) (new : List Char) : Prop :=
  (∃ index, count ≤ index ∧ new = naming.fresh index) ∨
    new = Player.outputName.toList ∧ definesOutput lines = true

theorem Later.mono (h : naming.Later count rest new) {before : Nat} (hle : before ≤ count)
    (line : List Char) : naming.Later before (line :: rest) new := by
  obtain ⟨index, hindex, hfresh⟩ | ⟨houtput, hrest⟩ := h
  · exact Or.inl ⟨index, hle.trans hindex, hfresh⟩
  · refine Or.inr ⟨houtput, ?_⟩
    rw [definesOutput, List.any_cons, ← definesOutput, hrest, Bool.or_true]

theorem later_nameOf (naming : Naming) (count : Nat) (hline : definedName line = some name)
    (rest : List (List Char)) :
    naming.Later count (line :: rest) (naming.nameOf count name rest) := by
  obtain hfresh | ⟨houtput, rfl, -⟩ := naming.nameOf_cases count name rest
  · exact Or.inl ⟨count, le_rfl, hfresh⟩
  · refine Or.inr ⟨houtput, ?_⟩
    rw [definesOutput, List.any_cons, hline, BEq.rfl, Bool.true_or]

theorem not_later_nameOf (naming : Naming) (count : Nat) (name : List Char)
    (rest : List (List Char)) :
    ¬ naming.Later (count + 1) rest (naming.nameOf count name rest) := by
  rintro (⟨index, hindex, heq⟩ | ⟨heq, hrest⟩)
  · obtain hfresh | ⟨houtput, -⟩ := naming.nameOf_cases count name rest
    · rw [hfresh] at heq
      exact absurd (naming.injective heq) (by omega)
    · rw [houtput] at heq
      exact naming.ne_output index heq.symm
  · obtain hfresh | ⟨-, -, hnone⟩ := naming.nameOf_cases count name rest
    · rw [hfresh] at heq
      exact naming.ne_output count heq
    · rw [hrest] at hnone
      cases hnone

theorem Tracks.nodup {parser other : Parser} (hopens : registry.OpensLines)
    (h : naming.Tracks count names all parser.patch other.patch)
    (hok : (parser.addLines registry all).1 = .ok ()) :
    (∀ new ∈ (naming.assignFrom registry count names all).filterMap definedName,
      naming.Later count all new) ∧
    ((naming.assignFrom registry count names all).filterMap definedName).Nodup := by
  -- The first name differs from all behind it, because those have larger indices or are the output.
  induction all generalizing count names parser other with
  | nil => exact ⟨List.forall_mem_nil _, List.nodup_nil⟩
  | cons line rest ih =>
    obtain ⟨found, hline⟩ := Parser.exists_ok_of_addLines hok
    obtain ⟨renamed, after, called, hassign, -, htracks, hnew⟩ := h.addLine hopens hline
    rw [Parser.addLines_cons hline] at hok
    obtain ⟨hlater, hnodup⟩ := ih htracks hok
    obtain ⟨hnone, rfl⟩ | ⟨name, hname, hnew, rfl⟩ := hnew
    · rw [hassign, List.filterMap_cons, hnone]
      exact ⟨fun new hmem => (hlater new hmem).mono le_rfl line, hnodup⟩
    · rw [hassign, List.filterMap_cons, hnew]
      refine ⟨List.forall_mem_cons.2 ⟨naming.later_nameOf count hname rest, ?_⟩,
        List.nodup_cons.2 ⟨?_, hnodup⟩⟩
      · exact fun new hmem => (hlater new hmem).mono (Nat.le_succ count) line
      · exact fun hmem => naming.not_later_nameOf count name rest (hlater _ hmem)

theorem not_mem_assignFrom {c : Char} (hc : isDelimiter c = true)
    (hnames : ∀ token, IsToken token → IsToken (names.of token)) (naming : Naming)
    (registry : Registry) (count : Nat) (hlines : ∀ line ∈ all, c ∉ line) :
    ∀ line ∈ naming.assignFrom registry count names all, c ∉ line := by
  induction all generalizing count names with
  | nil => exact List.forall_mem_nil _
  | cons line rest ih =>
    rw [List.forall_mem_cons] at hlines
    obtain ⟨hline, hrest⟩ := hlines
    unfold assignFrom
    split
    next => exact List.forall_mem_cons.2 ⟨hline, ih hnames count hrest⟩
    next name _ =>
      have hnew := (naming.isName_nameOf count name rest).isToken
      refine List.forall_mem_cons.2 ⟨not_mem_retoken hline ?_, ih ?_ (count + 1) hrest⟩
      · intro token hmem
        exact (Renaming.isToken_of_mem_respell hnames hnew (fun _ => of_mem_tokens) token
          hmem).not_mem hc
      · intro token htoken
        rw [Renaming.of_cons]
        split
        · exact hnew
        · exact hnames token htoken

theorem exists_lines_eq_assign (naming : Naming) (registry : Registry) (text : String) :
    ∃ renamed : String, lines renamed.toList = naming.assign registry (lines text.toList) := by
  have hnames : ∀ token, IsToken token → IsToken (Renaming.of [] token) := fun _ h => h
  obtain ⟨renamed, hrenamed⟩ := exists_lines_eq
    (not_mem_assignFrom (by decide) hnames naming registry 0 fun _ => not_mem_of_mem_lines)
  exact ⟨String.ofList renamed, by rw [String.toList_ofList, hrenamed]; rfl⟩

end Naming

namespace Patch

variable {naming : Naming} {registry : Registry} {patch : Patch} {text renamed : String}

theorem parse_assign (naming : Naming) (hopens : registry.OpensLines) {files : Files}
    (hparse : Patch.parse { rack := { files } } registry text = (.ok (), patch))
    (hrenamed : lines renamed.toList = naming.assign registry (lines text.toList)) :
    ((lines renamed.toList).filterMap definedName).Nodup ∧
    ∃ twin, Patch.parse { rack := { files } } registry renamed = (.ok (), twin) ∧
      twin.rack = patch.rack ∧ twin.table.anonymous = patch.table.anonymous ∧
      ∀ id, patch.table.get? Player.outputName = some id →
        twin.table.get? Player.outputName = some id := by
  generalize hstart : ({ patch := { rack := { files } } } : Parser) = start
  have hread : ∀ text : String, Patch.parse { rack := { files } } registry text
      = ((start.addLines registry (lines text.toList)).1,
        (start.addLines registry (lines text.toList)).2.patch) := by
    subst hstart
    exact fun _ => rfl
  have hempty : naming.Tracks 0 [] (lines text.toList) start.patch start.patch := by
    subst hstart
    exact naming.tracks_empty (lines text.toList) files
  rw [hread] at hparse
  obtain ⟨hok, rfl⟩ := Prod.mk.inj hparse
  obtain ⟨hother, after, called, htracks⟩ := hempty.addLines hopens hok
  rw [hread renamed, hrenamed]
  refine ⟨(hempty.nodup hopens hok).2, _, Prod.ext hother rfl, htracks.rack_eq,
    htracks.anonymous_eq, ?_⟩
  intro id hid
  rw [← String.ofList_toList (s := Player.outputName)] at hid ⊢
  obtain ⟨new, hnew, htwin⟩ := htracks.bound _ id hid
  rw [htracks.output rfl new hnew] at htwin
  exact htwin

end Patch
end PatchSynth
