import PatchSynth.Proofs.Patch.SingleAssignment
import PatchSynth.Proofs.Text.Lines

/-!
This module contains that texts are read piece by piece: what a parser makes of two texts one after
the other is what it makes of both in one, if the first holds whole lines. The first line that is
refused ends a text; the definitions above it stay, and the lines below it do not matter.
-/

namespace PatchSynth

namespace Rack

theorem size_addAll (rack : Rack) (devices : List (Device Nat)) :
    (rack.addAll devices).nodes.size = rack.nodes.size + devices.length := by
  induction devices generalizing rack with
  | nil => rfl
  | cons device rest ih =>
    have hrest := ih (rack.add device).2
    rw [size_nodes_add] at hrest
    rw [List.length_cons]
    refine hrest.trans ?_
    omega

theorem extends_addAll (rack : Rack) (devices : List (Device Nat)) :
    rack.Extends (rack.addAll devices) := by
  induction devices generalizing rack with
  | nil => exact Extends.refl rack
  | cons device rest ih => exact (rack.extends_add device).trans (ih (rack.add device).2)

theorem exists_last_addAll (rack : Rack) (devices : List (Device Nat)) (device : Device Nat) :
    ∃ node, (rack.addAll (devices ++ [device])).nodes[rack.nodes.size + devices.length]?
        = some node ∧ node.device = device := by
  have hlast : rack.addAll (devices ++ [device]) = ((rack.addAll devices).add device).2 := by
    rw [addAll_append]
    rfl
  rw [hlast, ← size_addAll, getElem?_add_size]
  exact ⟨_, rfl, rfl⟩

end Rack

theorem Scope.Refuses.token_mem {registry : Registry} {scope : Scope} {fresh : Nat}
    {tokens : List (List Char)} {fault : ParseFault} {token : List Char} {numbers : List Float32}
    (h : Scope.Refuses registry scope fresh tokens fault token numbers) :
    token ∈ tokens ∨ tokens = [] ∧ token = [] := by
  have hhead : tokens.headD [] ∈ tokens ∨ tokens = [] ∧ tokens.headD [] = [] := by
    cases tokens with
    | nil => exact Or.inr ⟨rfl, rfl⟩
    | cons first rest => exact Or.inl List.mem_cons_self
  cases h with
  | unknownType _ => exact hhead
  | missingName _ _ => exact hhead
  | param _ _ _ _ => simp
  | surplus _ _ => simp
  | missing _ _ _ => exact Or.inl (List.mem_cons_of_mem _ List.getLastD_mem_cons)
  | factory _ _ _ _ => exact Or.inl List.mem_cons_self

namespace Parser

variable {parser next before : Parser} {registry : Registry} {line name : List Char}
  {all : List (List Char)} {error : ParseError}

theorem definedName_of_accepts (hline : ¬ Skipped line) {scope : Scope} {fresh : Nat}
    {device : Device Nat} {numbers : List Float32}
    (h : Scope.Accepts registry scope fresh (tokens line) name device numbers) :
    definedName line = some name := by
  generalize htokens : tokens line = runs at h
  cases h with
  | intro _ _ _ _ => exact definedName_of_tokens hline htokens

theorem extends_addLine (parser : Parser) (registry : Registry) (line : List Char) :
    parser.patch.rack.Extends (parser.addLine registry line).2.patch.rack ∧
      ∀ name, definedName line ≠ some name →
        (parser.addLine registry line).2.patch.table.get? (String.ofList name)
          = parser.patch.table.get? (String.ofList name) := by
  by_cases hline : Skipped line
  · rw [addLine_of_skipped hline]
    exact ⟨Rack.Extends.refl _, fun _ _ => rfl⟩
  · obtain ⟨found, device, numbers, haccepts⟩ | ⟨fault, token, numbers, hrefuses⟩ :=
      Scope.accepts_or_refuses registry parser.patch.scope parser.patch.rack.nodes.size
        (tokens line)
    · have hdefines := (addLine_of_accepts hline haccepts).2
      rw [definedName_of_accepts hline haccepts]
      refine ⟨?_, ?_⟩
      · rw [hdefines.rack_eq]
        exact Rack.extends_addAll _ _
      · intro name hname
        rw [hdefines.get?_eq, if_neg]
        intro heq
        exact hname (congrArg some (String.ofList_injective heq).symm)
    · have hgains := (addLine_of_refuses hline hrefuses).2
      refine ⟨?_, fun name _ => hgains.get?_eq _⟩
      rw [hgains.rack_eq]
      exact Rack.extends_addAll _ _

theorem extends_addLines (h : parser.addLines registry all = (.ok (), next)) :
    parser.patch.rack.Extends next.patch.rack ∧
      ∀ name, (∀ line ∈ all, definedName line ≠ some name) →
        next.patch.table.get? (String.ofList name)
          = parser.patch.table.get? (String.ofList name) := by
  induction all generalizing parser with
  | nil =>
    cases h
    exact ⟨Rack.Extends.refl _, fun _ _ => rfl⟩
  | cons line rest ih =>
    obtain ⟨found, hfound⟩ := exists_ok_of_addLines (congrArg Prod.fst h)
    rw [addLines_cons hfound] at h
    obtain ⟨hextends, hnames⟩ := parser.extends_addLine registry line
    obtain ⟨hextends', hnames'⟩ := ih h
    refine ⟨hextends.trans hextends', ?_⟩
    intro name hname
    obtain ⟨hline, hrest⟩ := List.forall_mem_cons.1 hname
    rw [hnames' name hrest, hnames name hline]

theorem addLines_append (parser : Parser) (registry : Registry) (above below : List (List Char)) :
    parser.addLines registry (above ++ below) =
      match parser.addLines registry above with
      | (.error error, next) => (.error error, next)
      | (.ok (), next) => next.addLines registry below := by
  induction above generalizing parser with
  | nil => rfl
  | cons line above ih =>
    rw [List.cons_append, addLines, addLines]
    cases parser.addLine registry line with
    | mk result next =>
      cases result with
      | error error => rfl
      | ok found => exact ih next

theorem lineNumber_addLines (h : parser.addLines registry all = (.ok (), next)) :
    next.lineNumber = parser.lineNumber + all.length := by
  induction all generalizing parser with
  | nil =>
    cases h
    rfl
  | cons line rest ih =>
    obtain ⟨found, hfound⟩ := exists_ok_of_addLines (congrArg Prod.fst h)
    rw [addLines_cons hfound] at h
    rw [ih h, lineNumber_addLine, List.length_cons]
    omega

theorem exists_refused (h : parser.addLines registry all = (.error error, next)) :
    ∃ above line below before, all = above ++ line :: below ∧
      parser.addLines registry above = (.ok (), before) ∧
      before.addLine registry line = (.error error, next) := by
  induction all generalizing parser with
  | nil => cases h
  | cons line rest ih =>
    cases hline : parser.addLine registry line with
    | mk result after =>
      cases result with
      | error fault =>
        rw [addLines, hline] at h
        cases h
        exact ⟨[], line, rest, parser, rfl, rfl, hline⟩
      | ok found =>
        have hfirst : ∀ more,
            parser.addLines registry (line :: more) = after.addLines registry more := by
          intro more
          rw [addLines, hline]
        rw [hfirst] at h
        obtain ⟨above, refused, below, before, rfl, habove, hrefused⟩ := ih h
        exact ⟨line :: above, refused, below, before, rfl, (hfirst above).trans habove, hrefused⟩

/--
Whether a patch has all that some lines define: the node that each of them built, and its name for
this node unless one of the lines below it defines the name again.
-/
def Leaves (parser : Parser) (registry : Registry) (all : List (List Char)) (patch : Patch) :
    Prop :=
  ∀ earlier line later, all = earlier ++ line :: later → ¬ Skipped line →
    ∃ before name device numbers node,
      parser.addLines registry earlier = (.ok (), before) ∧
      Scope.Accepts registry before.patch.scope before.patch.rack.nodes.size (tokens line) name
        device numbers ∧
      patch.rack.nodes[before.patch.rack.nodes.size + numbers.length]? = some node ∧
      node.device = device ∧
      ((∀ other ∈ later, definedName other ≠ some name) →
        patch.table.get? (String.ofList name)
          = some (before.patch.rack.nodes.size + numbers.length))

theorem leaves_of_addLines (h : parser.addLines registry all = (.ok (), next)) :
    parser.Leaves registry all next.patch := by
  rintro earlier line later rfl hline
  rw [addLines_append] at h
  cases hearlier : parser.addLines registry earlier with
  | mk result before =>
    rw [hearlier] at h
    cases result with
    | error error => cases h
    | ok _ =>
      dsimp only at h
      obtain ⟨found, hfound⟩ := exists_ok_of_addLines (congrArg Prod.fst h)
      rw [addLines_cons hfound] at h
      obtain ⟨hextends, hnames⟩ := extends_addLines h
      obtain ⟨name, device, numbers, haccepts⟩ | ⟨fault, token, numbers, hrefuses⟩ :=
        Scope.accepts_or_refuses registry before.patch.scope before.patch.rack.nodes.size
          (tokens line)
      · have hdefines := (addLine_of_accepts hline haccepts).2
        obtain ⟨node, hnode, hdevice⟩ :=
          before.patch.rack.exists_last_addAll (numbers.map .constant) device
        rw [← hdefines.rack_eq, List.length_map] at hnode
        refine ⟨before, name, device, numbers, node, rfl, haccepts, hextends _ _ hnode, hdevice, ?_⟩
        intro hlater
        rw [hnames name hlater, hdefines.get?_eq, if_pos rfl]
      · rw [(addLine_of_refuses hline hrefuses).1] at hfound
        cases hfound

theorem exists_refuses (h : parser.addLine registry line = (.error error, next)) :
    ∃ fault token numbers,
      Scope.Refuses registry parser.patch.scope parser.patch.rack.nodes.size (tokens line) fault
        token numbers ∧
      error =
        { fault, lineNumber := parser.lineNumber + 1, line := String.ofList (trimEnd line)
          token := String.ofList token } ∧
      parser.patch.Gains next.patch numbers := by
  have herror := congrArg Prod.fst h
  have hnext := congrArg Prod.snd h
  obtain ⟨-, hother⟩ | ⟨-, _, _, _, -, hother⟩ | ⟨hline, fault, token, numbers, hrefuses, heq⟩ :=
    parser.addLine_cases registry line
  · rw [herror] at hother
    cases hother
  · rw [herror] at hother
    cases hother
  · rw [herror] at heq
    have hgains := (addLine_of_refuses hline hrefuses).2
    rw [hnext] at hgains
    exact ⟨fault, token, numbers, hrefuses, Except.error.inj heq, hgains⟩

theorem Leaves.of_gains {patch after : Patch} {numbers : List Float32}
    (h : parser.Leaves registry all patch) (hgains : patch.Gains after numbers) :
    parser.Leaves registry all after := by
  intro earlier line later heq hline
  obtain ⟨before, name, device, numbers, node, hearlier, haccepts, hnode, hdevice, hname⟩ :=
    h earlier line later heq hline
  have hextends : patch.rack.Extends after.rack := by
    rw [hgains.rack_eq]
    exact Rack.extends_addAll _ _
  refine ⟨before, name, device, numbers, node, hearlier, haccepts, hextends _ _ hnode, hdevice, ?_⟩
  intro hlater
  rw [hgains.get?_eq, hname hlater]

/--
Texts are read piece by piece. What a parser makes of two texts, the first of which holds whole
lines, is what it makes of them one after the other. And if a text is refused, all lines above some
line are accepted, and this one is refused: its number is one more than there are line feeds above
it, the error quotes it and one of its tokens, the definitions above it stay, and whatever else is
below it does not matter.
-/
theorem parse_append (registry : Registry) :
    (∀ (parser : Parser) (front back : String), EndsLines front.toList →
      parser.parse registry (front ++ back) =
        match parser.parse registry front with
        | (.error error, next) => (.error error, next)
        | (.ok (), next) => next.parse registry back) ∧
    ∀ (patch : Patch) (text : String) (error : ParseError) (next : Parser),
      Parser.parse { patch } registry text = (.error error, next) →
      ∃ (front back : String) (line : List Char) (below : List (List Char)) (before : Parser),
        text = front ++ back ∧ EndsLines front.toList ∧ lines back.toList = line :: below ∧
        Parser.parse { patch } registry front = (.ok (), before) ∧
        before.addLine registry line = (.error error, next) ∧
        error.lineNumber = front.toList.count '\n' + 1 ∧ next.lineNumber = error.lineNumber ∧
        error.line = String.ofList (trimEnd line) ∧
        (∃ token, error.token = String.ofList token ∧
          (token ∈ tokens line ∨ tokens line = [] ∧ token = [])) ∧
        Leaves { patch } registry (lines front.toList) next.patch ∧
        ∀ (other : String) (rest : List (List Char)),
          lines other.toList = lines front.toList ++ line :: rest →
            Parser.parse { patch } registry other = (.error error, next) := by
  refine ⟨?_, ?_⟩
  · intro parser front back hfront
    rw [parse, String.toList_append, lines_append hfront, addLines_append]
    rfl
  · intro patch text error next h
    obtain ⟨above, line, below, before, hlines, habove, hline⟩ := exists_refused h
    obtain ⟨start, rest, htext, hstart, rfl, hrest⟩ := exists_append_of_lines_eq hlines
    obtain ⟨front, rfl⟩ : ∃ front : String, front.toList = start := ⟨_, String.toList_ofList⟩
    obtain ⟨back, rfl⟩ : ∃ back : String, back.toList = rest := ⟨_, String.toList_ofList⟩
    rw [← String.toList_append, String.toList_inj] at htext
    obtain ⟨fault, token, numbers, hrefuses, rfl, hgains⟩ := exists_refuses hline
    have hnumber := lineNumber_addLines habove
    rw [length_lines hstart, Nat.zero_add] at hnumber
    have hnext := before.lineNumber_addLine registry line
    rw [hline] at hnext
    refine ⟨front, back, line, below, before, htext, hstart, hrest, habove, hline,
      congrArg (· + 1) hnumber, hnext, rfl, ⟨token, rfl, hrefuses.token_mem⟩,
      (leaves_of_addLines habove).of_gains hgains, ?_⟩
    intro other more hother
    rw [parse, hother, addLines_append, habove]
    dsimp only
    rw [addLines, hline]

def upperText : String := "Constant c(1)\r\n# two\n\n"

def lowerText : String := "Add x(c, 1)\nAdd y(x)\nConstant c(2)"

theorem parse_append_halfway :
    EndsLines upperText.toList ∧
    (∃ before, Parser.parse {} Registry.standard upperText = (.ok (), before) ∧
      Parser.parse {} Registry.standard (upperText ++ lowerText)
        = before.parse Registry.standard lowerText) ∧
    ∃ error next,
      Parser.parse {} Registry.standard (upperText ++ lowerText) = (.error error, next) ∧
      error.lineNumber = 5 ∧ error.line = "Add y(x)" ∧ error.token = "x" ∧
      ∃ front back : String, ∃ line below before,
        upperText ++ lowerText = front ++ back ∧ lines back.toList = line :: below ∧
        front.toList.count '\n' = 4 ∧
        Parser.parse {} Registry.standard front = (.ok (), before) ∧
        before.addLine Registry.standard line = (.error error, next) := by
  obtain ⟨happend, hrefused⟩ := parse_append Registry.standard
  have hends : EndsLines upperText.toList := Or.inr (by decide)
  have hupper : Parser.parse {} Registry.standard upperText
      = (.ok (), (Parser.parse {} Registry.standard upperText).2) := Prod.ext rfl rfl
  have herror : Parser.parse {} Registry.standard (upperText ++ lowerText)
      = (.error { fault := .tooFewParams, lineNumber := 5, line := "Add y(x)", token := "x" },
          (Parser.parse {} Registry.standard (upperText ++ lowerText)).2) := Prod.ext rfl rfl
  refine ⟨hends, ⟨_, hupper, ?_⟩, _, _, herror, rfl, rfl, rfl, ?_⟩
  · rw [happend {} upperText lowerText hends, hupper]
  · obtain ⟨front, back, line, below, before, htext, -, hback, hfront, hline, hnumber, -⟩ :=
      hrefused {} _ _ _ herror
    exact ⟨front, back, line, below, before, htext, hback, (Nat.succ.inj hnumber).symm, hfront,
      hline⟩

end Parser
end PatchSynth
