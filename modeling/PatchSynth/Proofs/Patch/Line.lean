import PatchSynth.Proofs.Patch.Grammar
import PatchSynth.Proofs.Patch.Parse

/-!
This module contains that a parser accepts the lines of the grammar and no others, reports the first
thing that is wrong with all others, and what it leaves behind in both cases.
-/

namespace PatchSynth

namespace Rack

def addAll (rack : Rack) (devices : List (Device Nat)) : Rack :=
  devices.foldl (fun rack device => (rack.add device).2) rack

theorem addAll_append (rack : Rack) (devices more : List (Device Nat)) :
    rack.addAll (devices ++ more) = (rack.addAll devices).addAll more :=
  List.foldl_append

theorem isStereo_add_constant (rack : Rack) (value : Float32) :
    (rack.add (.constant value)).2.isStereo = rack.isStereo := by
  funext id
  unfold isStereo
  by_cases hlt : id < rack.nodes.size
  · rw [getElem?_add_of_lt rack _ hlt]
  · have hnone : rack.nodes[id]? = none := by
      rw [Array.getElem?_eq_none_iff]
      omega
    by_cases hid : id = rack.nodes.size
    · -- The new node is a mono one, and there was none before.
      subst hid
      simp [add, Device.isStereo]
    · have hlater : (rack.add (.constant value)).2.nodes[id]? = none := by
        rw [Array.getElem?_eq_none_iff, size_nodes_add]
        omega
      rw [hnone, hlater]

end Rack

namespace Patch

def scope (patch : Patch) : Scope := fun token =>
  (patch.table.get? (String.ofList token)).map fun id => (id, patch.rack.isStereo id)

def addLiteral (patch : Patch) (number : Float32) : Patch :=
  (patch.build (.constant number)).2.insertAnonymous (patch.build (.constant number)).1

def addLiterals (patch : Patch) (numbers : List Float32) : Patch :=
  numbers.foldl addLiteral patch

structure Gains (patch next : Patch) (numbers : List Float32) : Prop where
  rack_eq : next.rack = patch.rack.addAll (numbers.map .constant)
  get?_eq : ∀ name, next.table.get? name = patch.table.get? name
  anonymous_eq : next.table.anonymous
    = patch.table.anonymous ++ List.range' patch.rack.nodes.size numbers.length

structure Defines (patch next : Patch) (name : String) (device : Device Nat)
    (numbers : List Float32) : Prop where
  rack_eq : next.rack = patch.rack.addAll (numbers.map .constant ++ [device])
  get?_eq : ∀ other, next.table.get? other
    = if other = name then
        some (patch.rack.nodes.size + numbers.length)
      else
        patch.table.get? other
  anonymous_eq : next.table.anonymous
    = patch.table.anonymous ++ List.range' patch.rack.nodes.size numbers.length

variable {patch next : Patch} {registry : Registry} {fresh : Nat} {kind : ParamKind}
  {token : List Char} {value : ParamValue} {numbers : List Float32}

theorem addLiterals_append (patch : Patch) (numbers more : List Float32) :
    patch.addLiterals (numbers ++ more) = (patch.addLiterals numbers).addLiterals more :=
  List.foldl_append

theorem scope_addLiteral (patch : Patch) (number : Float32) :
    (patch.addLiteral number).scope = patch.scope := by
  funext token
  have hrack : (patch.addLiteral number).rack.isStereo = patch.rack.isStereo :=
    Rack.isStereo_add_constant patch.rack number
  rw [scope, scope, hrack]
  rfl

theorem size_addLiteral (patch : Patch) (number : Float32) :
    (patch.addLiteral number).rack.nodes.size = patch.rack.nodes.size + 1 :=
  Rack.size_nodes_add patch.rack (.constant number)

theorem scope_addLiterals (patch : Patch) (numbers : List Float32) :
    (patch.addLiterals numbers).scope = patch.scope := by
  induction numbers generalizing patch with
  | nil => rfl
  | cons number rest ih =>
    have hfirst := patch.scope_addLiteral number
    rw [← hfirst]
    exact ih (patch.addLiteral number)

theorem size_addLiterals (patch : Patch) (numbers : List Float32) :
    (patch.addLiterals numbers).rack.nodes.size = patch.rack.nodes.size + numbers.length := by
  induction numbers generalizing patch with
  | nil => rfl
  | cons number rest ih =>
    have hrest := ih (patch.addLiteral number)
    rw [size_addLiteral] at hrest
    rw [List.length_cons]
    refine hrest.trans ?_
    omega

theorem gains_addLiterals (patch : Patch) (numbers : List Float32) :
    patch.Gains (patch.addLiterals numbers) numbers := by
  induction numbers generalizing patch with
  | nil => exact ⟨rfl, fun _ => rfl, by simp [addLiterals]⟩
  | cons number rest ih =>
    obtain ⟨hrack, hnames, hanonymous⟩ := ih (patch.addLiteral number)
    refine ⟨hrack, hnames, ?_⟩
    have hfirst : (patch.addLiteral number).table.anonymous
        = patch.table.anonymous ++ [patch.rack.nodes.size] := rfl
    rw [size_addLiteral, hfirst, List.append_assoc] at hanonymous
    exact hanonymous

theorem defines_insert (patch : Patch) (numbers : List Float32) (device : Device Nat)
    (name : String) (event : Event) :
    patch.Defines
      ((((patch.addLiterals numbers).build device).2.note event).insert name
        ((patch.addLiterals numbers).build device).1) name device numbers := by
  obtain ⟨hrack, hnames, hanonymous⟩ := patch.gains_addLiterals numbers
  have hid : ((patch.addLiterals numbers).build device).1
      = patch.rack.nodes.size + numbers.length := patch.size_addLiterals numbers
  refine ⟨?_, ?_, ?_⟩
  · rw [rack_insert, Rack.addAll_append, ← hrack]
    rfl
  · intro other
    rw [table_insert, Table.get?_insert, hid, ← hnames other]
    rfl
  · rw [table_insert, Table.anonymous_insert]
    exact hanonymous

theorem resolve_of_none (h : patch.scope token = none) (stereo : Bool) :
    patch.resolve token stereo = .error .unknownInstance := by
  rw [scope, Option.map_eq_none_iff] at h
  rw [resolve, h]

theorem resolve_of_some {id : Nat} {found : Bool} (h : patch.scope token = some (id, found))
    (stereo : Bool) :
    patch.resolve token stereo
      = if found = stereo then .ok id else .error (if stereo then .notStereo else .notMono) := by
  rw [scope, Option.map_eq_some_iff] at h
  obtain ⟨named, hnamed, heq⟩ := h
  cases heq
  rw [resolve, hnamed]

theorem bind_of_misfit {fault : ParseFault} (h : patch.scope.Misfit kind token fault) :
    patch.bind kind token = (.error fault, patch) := by
  cases h with
  | float hdigit => simp only [bind, numberOfToken_eq_none hdigit]
  | int hdigit => simp only [bind, numberOfToken_eq_none hdigit]
  | mono hdigit hname =>
    simp only [bind, hdigit, resolve_of_none hname]
    rfl
  | notMono hdigit hname =>
    simp only [bind, hdigit, resolve_of_some hname]
    rfl
  | noName hletter => simp [bind, hletter]
  | stereo hletter hname =>
    simp only [bind, hletter, if_true, resolve_of_none hname]
    rfl
  | notStereo hletter hname =>
    simp only [bind, hletter, if_true, resolve_of_some hname]
    rfl
  | string => rfl

theorem bind_of_denotes (h : patch.scope.Denotes patch.rack.nodes.size kind token value) :
    patch.bind kind token
      = (.ok value, patch.addLiterals (Scope.literalOf kind token).toList) := by
  cases h with
  | float hnumber =>
    simp only [bind, hnumber]
    rfl
  | int hnumber =>
    simp only [bind, hnumber]
    rfl
  | literal hnumber =>
    simp only [bind, Scope.literalOf, Scope.startsWithDigit_of_number hnumber, hnumber, if_true]
    rfl
  | mono hdigit hname =>
    simp only [bind, Scope.literalOf, numberOfToken_eq_none hdigit, hdigit, resolve_of_some hname]
    rfl
  | stereo hletter hname =>
    simp only [bind, hletter, if_true, resolve_of_some hname]
    rfl

theorem literals_cons (param : ParamSpec) (params : List ParamSpec) (token : List Char)
    (tokens : List (List Char)) :
    Scope.literals (param :: params) (token :: tokens)
      = (Scope.literalOf param.kind token).toList ++ Scope.literals params tokens := by
  simp only [Scope.literals, List.zip_cons_cons, List.filterMap_cons]
  cases Scope.literalOf param.kind token <;> rfl

theorem bindAll_append {scope : Scope} {front : List ParamSpec} {before : List (List Char)}
    {values : List ParamValue} (h : scope.Binds fresh front before values)
    (hscope : patch.scope = scope) (hfresh : patch.rack.nodes.size = fresh)
    (rest : List ParamSpec) (after : List (List Char)) (last : List Char) :
    patch.bindAll last (front ++ rest) (before ++ after) =
      match (patch.addLiterals (Scope.literals front before)).bindAll (before.getLastD last) rest
        after with
      | (.error refusal, next) => (.error refusal, next)
      | (.ok more, next) => (.ok (values ++ more), next) := by
  induction h generalizing patch last with
  | nil =>
    simp only [List.nil_append, Scope.literals, List.zip_nil_left, List.filterMap_nil]
    rw [List.getLastD_nil, addLiterals, List.foldl_nil]
    cases patch.bindAll last rest after with
    | mk result next => cases result <;> rfl
  | @cons fresh param params token tokens value values hvalue _ ih =>
    subst hscope
    subst hfresh
    have hscope := patch.scope_addLiterals (Scope.literalOf param.kind token).toList
    have hsize := patch.size_addLiterals (Scope.literalOf param.kind token).toList
    rw [List.cons_append, List.cons_append, bindAll, bind_of_denotes hvalue]
    dsimp only
    rw [ih hscope hsize, literals_cons, addLiterals_append, List.getLastD_cons]
    cases bindAll _ _ rest after with
    | mk result next => cases result <;> rfl

theorem bindAll_of_binds {params : List ParamSpec} {tokens : List (List Char)}
    {values : List ParamValue}
    (h : patch.scope.Binds patch.rack.nodes.size params tokens values) (last : List Char) :
    patch.bindAll last params tokens
      = (.ok values, patch.addLiterals (Scope.literals params tokens)) := by
  have hall := bindAll_append h rfl rfl [] [] last
  rw [List.append_nil, List.append_nil] at hall
  rw [hall, bindAll]
  simp

theorem bindAll_of_fits {front : List ParamSpec} {before : List (List Char)}
    (h : patch.scope.Fits front before) (rest : List ParamSpec) (after : List (List Char))
    (last : List Char) {refusal : Refusal}
    (hrest : (patch.addLiterals (Scope.literals front before)).bindAll (before.getLastD last) rest
      after = (.error refusal, patch.addLiterals (Scope.literals front before))) :
    patch.bindAll last (front ++ rest) (before ++ after)
      = (.error refusal, patch.addLiterals (Scope.literals front before)) := by
  obtain ⟨values, hvalues⟩ := Scope.exists_binds h patch.rack.nodes.size
  rw [bindAll_append hvalues rfl rfl rest after last, hrest]

theorem define_of_accepts {tokens : List (List Char)} {name : List Char} {device : Device Nat}
    (h : Scope.Accepts registry patch.scope patch.rack.nodes.size tokens name device numbers)
    (lineNumber : Nat) :
    (patch.define registry lineNumber tokens).1 = .ok (patch.rack.nodes.size + numbers.length) ∧
      patch.Defines (patch.define registry lineNumber tokens).2 (String.ofList name) device
        numbers := by
  cases h with
  | @intro typeToken _ tokens descriptor values _ htype hfits hvalues hdevice =>
    have hid : ((patch.addLiterals (Scope.literals descriptor.params tokens)).build device).1
        = patch.rack.nodes.size + (Scope.literals descriptor.params tokens).length :=
      patch.size_addLiterals _
    have hbind := bindAll_of_binds hvalues name
    simp only [define, List.headD_cons, List.tail_cons, htype, hbind, hdevice]
    exact ⟨congrArg _ hid, patch.defines_insert _ device _ _⟩

theorem define_of_refuses {tokens : List (List Char)} {fault : ParseFault}
    (h : Scope.Refuses registry patch.scope patch.rack.nodes.size tokens fault token numbers)
    (lineNumber : Nat) :
    patch.define registry lineNumber tokens
      = (.error { fault, token }, patch.addLiterals numbers) := by
  cases h with
  | unknownType htype =>
    simp only [define, htype]
    rfl
  | missingName htype hname =>
    simp only [define, htype, hname]
    rfl
  | @param typeToken name token before after descriptor front rest param fault htype hparams hfits
      hmisfit =>
    have hrest : (patch.addLiterals (Scope.literals front before)).bindAll
        (before.getLastD name) (param :: rest) (token :: after)
          = (.error { fault, token }, patch.addLiterals (Scope.literals front before)) := by
      rw [← patch.scope_addLiterals (Scope.literals front before)] at hmisfit
      rw [bindAll, bind_of_misfit hmisfit]
    have hbind := bindAll_of_fits hfits (param :: rest) (token :: after) name hrest
    simp only [define, List.headD_cons, List.tail_cons, htype, hparams, hbind]
  | @surplus typeToken name token before after descriptor htype hfits =>
    have hbind := bindAll_of_fits hfits [] (token :: after) name rfl
    rw [List.append_nil] at hbind
    simp only [define, List.headD_cons, List.tail_cons, htype, hbind]
  | @missing typeToken name tokens descriptor front rest param htype hparams hfits =>
    have hbind := bindAll_of_fits hfits (param :: rest) [] name rfl
    rw [List.append_nil] at hbind
    simp only [define, List.headD_cons, List.tail_cons, htype, hparams, hbind]
  | @factory typeToken name tokens descriptor values cause htype hfits hvalues hcause =>
    have hbind := bindAll_of_binds hvalues name
    simp only [define, List.headD_cons, List.tail_cons, htype, hbind, hcause]

end Patch

def Skipped (line : List Char) : Prop :=
  trim line = [] ∨ ∃ rest, trim line = '#' :: rest

theorem isComment_iff {line : List Char} : isComment line = true ↔ Skipped line := by
  unfold isComment Skipped
  cases htrim : trim line with
  | nil => simp
  | cons c rest => simp

namespace Parser

variable {parser : Parser} {registry : Registry} {line : List Char}

theorem addLine_of_skipped (h : Skipped line) :
    parser.addLine registry line
      = (.ok none, { parser with lineNumber := parser.lineNumber + 1 }) := by
  simp only [addLine, isComment_iff.2 h, if_true]

theorem addLine_of_define (h : ¬ Skipped line) :
    parser.addLine registry line =
      match parser.patch.define registry (parser.lineNumber + 1) (tokens line) with
      | (.ok id, patch) => (.ok (some id), { patch, lineNumber := parser.lineNumber + 1 })
      | (.error { fault, token }, patch) =>
        (.error
            { fault, lineNumber := parser.lineNumber + 1, line := String.ofList (trimEnd line)
              token := String.ofList token },
          { patch, lineNumber := parser.lineNumber + 1 }) := by
  rw [← isComment_iff] at h
  simp only [addLine, h]
  rfl

theorem addLine_of_accepts (hline : ¬ Skipped line) {name : List Char} {device : Device Nat}
    {numbers : List Float32}
    (h : Scope.Accepts registry parser.patch.scope parser.patch.rack.nodes.size (tokens line) name
      device numbers) :
    (parser.addLine registry line).1
        = .ok (some (parser.patch.rack.nodes.size + numbers.length)) ∧
      parser.patch.Defines (parser.addLine registry line).2.patch (String.ofList name) device
        numbers := by
  obtain ⟨hresult, hdefines⟩ := Patch.define_of_accepts h (parser.lineNumber + 1)
  rw [addLine_of_define hline]
  cases hdefine : parser.patch.define registry (parser.lineNumber + 1) (tokens line) with
  | mk result next =>
    rw [hdefine] at hresult hdefines
    cases hresult
    exact ⟨rfl, hdefines⟩

theorem addLine_of_refuses (hline : ¬ Skipped line) {fault : ParseFault} {token : List Char}
    {numbers : List Float32}
    (h : Scope.Refuses registry parser.patch.scope parser.patch.rack.nodes.size (tokens line) fault
      token numbers) :
    (parser.addLine registry line).1
        = .error
          { fault, lineNumber := parser.lineNumber + 1, line := String.ofList (trimEnd line)
            token := String.ofList token } ∧
      parser.patch.Gains (parser.addLine registry line).2.patch numbers := by
  rw [addLine_of_define hline, Patch.define_of_refuses h]
  exact ⟨rfl, parser.patch.gains_addLiterals numbers⟩

theorem lineNumber_addLine (parser : Parser) (registry : Registry) (line : List Char) :
    (parser.addLine registry line).2.lineNumber = parser.lineNumber + 1 := by
  unfold addLine
  dsimp only
  split
  · rfl
  · split <;> rfl

theorem addLine_cases (parser : Parser) (registry : Registry) (line : List Char) :
    (Skipped line ∧ (parser.addLine registry line).1 = .ok none) ∨
      (¬ Skipped line ∧ ∃ name device numbers,
        Scope.Accepts registry parser.patch.scope parser.patch.rack.nodes.size (tokens line) name
          device numbers ∧
        (parser.addLine registry line).1
          = .ok (some (parser.patch.rack.nodes.size + numbers.length))) ∨
      ¬ Skipped line ∧ ∃ fault token numbers,
        Scope.Refuses registry parser.patch.scope parser.patch.rack.nodes.size (tokens line) fault
          token numbers ∧
        (parser.addLine registry line).1 = .error
          { fault, lineNumber := parser.lineNumber + 1, line := String.ofList (trimEnd line)
            token := String.ofList token } := by
  by_cases hline : Skipped line
  · exact Or.inl ⟨hline, congrArg Prod.fst (addLine_of_skipped hline)⟩
  · obtain ⟨name, device, numbers, haccepts⟩ | ⟨fault, token, numbers, hrefuses⟩ :=
      Scope.accepts_or_refuses registry parser.patch.scope parser.patch.rack.nodes.size
        (tokens line)
    · exact Or.inr (Or.inl ⟨hline, name, device, numbers, haccepts,
        (addLine_of_accepts hline haccepts).1⟩)
    · exact Or.inr (Or.inr ⟨hline, fault, token, numbers, hrefuses,
        (addLine_of_refuses hline hrefuses).1⟩)

/--
What a line does. A blank line or a comment does nothing. Every other one is cut into the runs of
characters between delimiters, and it defines an instance if and only if these follow the grammar.
Then the name stands for the new node, and each number in the place of an instance has got a
constant, in order. If they do not follow the grammar, the error is the first thing that is wrong
with them, and nothing is left but the constants of the numbers before it.
-/
theorem addLine_iff (parser : Parser) (registry : Registry) (line : List Char) :
    (∀ runs, Runs line runs ↔ runs = tokens line) ∧
    (parser.addLine registry line).2.lineNumber = parser.lineNumber + 1 ∧
    ((parser.addLine registry line).1 = .ok none ↔ Skipped line) ∧
    (Skipped line → (parser.addLine registry line).2.patch = parser.patch) ∧
    (∀ id, (parser.addLine registry line).1 = .ok (some id) ↔
      ¬ Skipped line ∧ ∃ name device numbers,
        Scope.Accepts registry parser.patch.scope parser.patch.rack.nodes.size (tokens line) name
          device numbers ∧
        id = parser.patch.rack.nodes.size + numbers.length) ∧
    (∀ name device numbers, ¬ Skipped line →
      Scope.Accepts registry parser.patch.scope parser.patch.rack.nodes.size (tokens line) name
        device numbers →
      parser.patch.Defines (parser.addLine registry line).2.patch (String.ofList name) device
        numbers) ∧
    (∀ error, (parser.addLine registry line).1 = .error error ↔
      ¬ Skipped line ∧ ∃ fault token numbers,
        Scope.Refuses registry parser.patch.scope parser.patch.rack.nodes.size (tokens line) fault
          token numbers ∧
        error =
          { fault, lineNumber := parser.lineNumber + 1, line := String.ofList (trimEnd line)
            token := String.ofList token }) ∧
    ∀ fault token numbers, ¬ Skipped line →
      Scope.Refuses registry parser.patch.scope parser.patch.rack.nodes.size (tokens line) fault
        token numbers →
      parser.patch.Gains (parser.addLine registry line).2.patch numbers := by
  have hcases := parser.addLine_cases registry line
  refine ⟨fun runs => runs_iff, parser.lineNumber_addLine registry line, ?_, ?_, ?_, ?_, ?_, ?_⟩
  · constructor
    · intro hnone
      rw [hnone] at hcases
      obtain ⟨hline, -⟩ | ⟨-, _, _, _, -, hother⟩ | ⟨-, _, _, _, -, hother⟩ := hcases
      · exact hline
      · cases hother
      · cases hother
    · intro hline
      rw [addLine_of_skipped hline]
  · intro hline
    rw [addLine_of_skipped hline]
  · intro id
    constructor
    · intro hsome
      rw [hsome] at hcases
      obtain ⟨-, hother⟩ | ⟨hline, name, device, numbers, haccepts, hid⟩ |
        ⟨-, _, _, _, -, hother⟩ := hcases
      · cases hother
      · cases hid
        exact ⟨hline, name, device, numbers, haccepts, rfl⟩
      · cases hother
    · rintro ⟨hline, name, device, numbers, haccepts, rfl⟩
      exact (addLine_of_accepts hline haccepts).1
  · intro name device numbers hline haccepts
    exact (addLine_of_accepts hline haccepts).2
  · intro error
    constructor
    · intro herror
      rw [herror] at hcases
      obtain ⟨-, hother⟩ | ⟨-, _, _, _, -, hother⟩ |
        ⟨hline, fault, token, numbers, hrefuses, heq⟩ := hcases
      · cases hother
      · cases hother
      · cases heq
        exact ⟨hline, fault, token, numbers, hrefuses, rfl⟩
    · rintro ⟨hline, fault, token, numbers, hrefuses, rfl⟩
      exact (addLine_of_refuses hline hrefuses).1
  · intro fault token numbers hline hrefuses
    exact (addLine_of_refuses hline hrefuses).2

end Parser
end PatchSynth
