import PatchSynth.CommandLine.Parser
import PatchSynth.Proofs.CommandLine.Options

/-!
This module contains what the program relies on in the reading of its command line, `Options.Reads`:
values that are written with their arguments are entered one after the other, in whatever order they
are written, and a value that is rejected is not passed over, whatever stands around it. `parse`
does this although it looks at a value late: a patch is put off until something follows it, and a
value that is rejected leaves the reading stuck until the end.
-/

namespace PatchSynth

namespace Argument

def name : Argument → String
  | .patch => ""
  | .blockSize => "block-size"
  | .blocks => "blocks"
  | .record => "record"
  | .scaler => "scaler"
  | .axis => "axis"
  | .verbose => "verbose"
  | .quiet => "quiet"
  | .help => "help"
  | .version => "version"

theorem ofLong?_name {argument : Argument} (h : argument ≠ .patch) :
    ofLong? argument.name = some argument := by
  cases argument with
  | patch => exact absurd rfl h
  | _ => rfl

theorem not_mem_name (argument : Argument) : '=' ∉ argument.name.toList := by
  cases argument <;> decide

def Rejects (argument : Argument) (value : String) : Prop :=
  ∀ options, ∃ e, argument.enter value options = .error e

end Argument

namespace Options

structure Assignment where
  argument : Argument
  value : String

namespace Assignment

def text (assignment : Assignment) : String :=
  if assignment.argument = .patch then
    assignment.value
  else
    "--" ++ assignment.argument.name ++ "=" ++ assignment.value

structure WellFormed (assignment : Assignment) : Prop where
  takesValue : assignment.argument.takesValue = true
  head_ne : assignment.argument = .patch → assignment.value.toList.head? ≠ some '-'

def enter (options : Options) (assignment : Assignment) : Except UsageError Options :=
  assignment.argument.enter assignment.value options

def Fresh (assignments : List Assignment) (assignment : Assignment) : Prop :=
  assignment.argument.repeats = true ∨ assignment.argument ∉ assignments.map argument

def Once (assignments : List Assignment) : Prop :=
  assignments.Pairwise fun first second =>
    second.argument.repeats = true ∨ first.argument ≠ second.argument

theorem Once.fresh {before after : List Assignment} {assignment : Assignment}
    (h : Once (before ++ assignment :: after)) : Fresh before assignment := by
  obtain ⟨-, -, hbetween⟩ := List.pairwise_append.1 h
  cases hrepeats : assignment.argument.repeats with
  | true => exact Or.inl hrepeats
  | false =>
    refine Or.inr fun hmem => ?_
    obtain ⟨first, hfirst, hsame⟩ := List.mem_map.1 hmem
    obtain hassignment | hne := hbetween first hfirst assignment List.mem_cons_self
    · rw [hrepeats] at hassignment
      cases hassignment
    · exact hne hsame

end Assignment

/--
What is relied on in a function that reads a command line.
-/
structure Reads (read : List String → Except UsageError Options) : Prop where
  entered : ∀ {assignments : List Assignment} {options : Options},
    (∀ assignment ∈ assignments, assignment.WellFormed) → Assignment.Once assignments →
      assignments.foldlM Assignment.enter {} = .ok options →
        read (assignments.map Assignment.text) = .ok options
  rejected : ∀ {before after : List String} {argument : Argument} {value : String},
    "--" ∉ before → argument ≠ .patch → argument.takesValue = true → argument.Rejects value →
      (∃ e, read (before ++ ("--" ++ argument.name ++ "=" ++ value) :: after) = .error e) ∧
      ∃ e, read (before ++ ("--" ++ argument.name) :: value :: after) = .error e

namespace Reading

variable {reading next : Reading} {argument : Argument} {value text : String}

theorem exists_error_of_rejects (h : argument.Rejects value) (reading : Reading) :
    ∃ e, reading.enter argument (some value) = .error e := by
  obtain ⟨e, herror⟩ := h reading.options
  unfold enter
  dsimp only
  split
  next => exact ⟨_, rfl⟩
  split
  next => exact ⟨_, rfl⟩
  rw [herror]
  exact ⟨_, rfl⟩

theorem keeps_literal : Keeps fun reading => reading.literal = false := by
  constructor
  · intro reading next argument value h hnext
    obtain ⟨options, rfl, -⟩ := exists_of_enter hnext
    exact h
  · intro reading pending h
    exact h

theorem next_dashes {rest : List Char} (hliteral : reading.literal = false)
    (htext : text.toList = '-' :: '-' :: rest) (hrest : rest ≠ []) :
    reading.next text = reading.long rest := by
  unfold Reading.next
  rw [hliteral, if_neg (by decide), htext]
  split
  next hdashes =>
    cases hdashes
    exact absurd rfl hrest
  next hdashes =>
    cases hdashes
    rfl
  next hother hdashes =>
    cases hdashes
    exact (hother rfl).elim
  next hother _ => exact (hother rest rfl).elim

theorem next_name (hliteral : reading.literal = false) (hargument : argument ≠ .patch)
    (hvalue : argument.takesValue = true) (value : String) :
    reading.next ("--" ++ argument.name ++ "=" ++ value)
      = reading.settle >>= fun settled => settled.enter argument (some value) := by
  have htext : ("--" ++ argument.name ++ "=" ++ value).toList
      = '-' :: '-' :: (argument.name.toList ++ '=' :: value.toList) := by simp
  have hname := argument.not_mem_name
  rw [next_dashes hliteral htext (by simp), long, takeWhile_pair hname, dropWhile_pair hname]
  rw [String.ofList_toList, Argument.ofLong?_name hargument, List.tail?_cons, Option.map_some,
    String.ofList_toList]
  dsimp only
  rw [hvalue]

theorem next_bare (hliteral : reading.literal = false) (hargument : argument ≠ .patch)
    (hvalue : argument.takesValue = true) :
    reading.next ("--" ++ argument.name)
      = reading.settle >>= fun settled =>
          .ok { settled with pending := some (argument, none) } := by
  have htext : ("--" ++ argument.name).toList = '-' :: '-' :: argument.name.toList := by simp
  have hempty : argument.name.toList ≠ [] := by
    cases argument <;> first | exact absurd rfl hargument | decide
  have hname := bne_of_not_mem argument.not_mem_name
  rw [next_dashes hliteral htext hempty, long, List.takeWhile_eq_self_iff.2 hname,
    List.dropWhile_eq_nil_iff.2 hname]
  rw [String.ofList_toList, Argument.ofLong?_name hargument]
  dsimp only
  rw [hvalue]
  rfl

inductive Stuck (reading : Reading) : Prop where
  | rejected {argument : Argument} {value : String}
      (hpending : reading.pending = some (argument, some value)) (h : argument.Rejects value)
  | missing {argument : Argument} (hpending : reading.pending = some (argument, none))
      (hvalue : argument.takesValue = true) (hliteral : reading.literal = true)

theorem exists_error_of_missing (hpending : reading.pending = some (argument, none))
    (hvalue : argument.takesValue = true) : reading.settle = .error .invalidValue := by
  simp only [settle, hpending, enter, hvalue]
  rfl

theorem Stuck.exists_error (h : reading.Stuck) : ∃ e, reading.settle = .error e := by
  cases h with
  | rejected hpending h =>
    simp only [settle, hpending]
    exact exists_error_of_rejects h _
  | missing hpending hvalue => exact ⟨_, exists_error_of_missing hpending hvalue⟩

section Unsettled

variable {e : UsageError} (h : reading.settle = .error e)
include h

theorem exists_error_of_positional (text : String) : ∃ e, reading.positional text = .error e := by
  unfold positional
  dsimp only
  split
  next => exact ⟨_, rfl⟩
  next =>
    rw [h]
    exact ⟨_, rfl⟩

theorem exists_error_of_long (text : List Char) : ∃ e, reading.long text = .error e := by
  unfold long
  dsimp only
  split
  next => exact ⟨_, rfl⟩
  next =>
    rw [h]
    split <;> exact ⟨_, rfl⟩

theorem exists_error_of_short (letter : Char) (rest : List Char) :
    ∃ e, reading.short (letter :: rest) = .error e := by
  rw [short]
  split
  next => exact ⟨_, rfl⟩
  next =>
    rw [h]
    exact ⟨_, rfl⟩

end Unsettled

theorem Stuck.step (h : reading.Stuck) (text : String) :
    (∃ e, reading.next text = .error e) ∨ ∃ last, reading.next text = .ok last ∧ last.Stuck := by
  obtain ⟨e, hsettle⟩ := h.exists_error
  unfold Reading.next
  split
  next => exact Or.inl (exists_error_of_positional hsettle text)
  next hliteral =>
    cases h with
    | missing _ _ hmissing => exact absurd hmissing hliteral
    | rejected hpending h =>
      -- Only `--` leaves the value put off; all else wants it entered first.
      split
      next => exact Or.inr ⟨_, rfl, Stuck.rejected hpending h⟩
      next => exact Or.inl (exists_error_of_long hsettle _)
      next => exact Or.inl (exists_error_of_short hsettle _ _)
      next =>
        rw [hpending]
        exact Or.inl (exists_error_of_positional hsettle text)

theorem step_of_missing (hpending : reading.pending = some (argument, none))
    (hvalue : argument.takesValue = true) (h : argument.Rejects value) :
    (∃ e, reading.next value = .error e) ∨
      ∃ last, reading.next value = .ok last ∧ last.Stuck := by
  have hsettle := exists_error_of_missing hpending hvalue
  unfold Reading.next
  split
  next => exact Or.inl (exists_error_of_positional hsettle value)
  next hliteral =>
    -- A value `--` is not taken for one, and from then on no value can follow.
    split
    next => exact Or.inr ⟨_, rfl, Stuck.missing hpending hvalue rfl⟩
    next => exact Or.inl (exists_error_of_long hsettle _)
    next => exact Or.inl (exists_error_of_short hsettle _ _)
    next =>
      rw [hpending]
      exact Or.inr ⟨_, rfl, Stuck.rejected rfl h⟩

def Fails (reading : Reading) (texts : List String) : Prop :=
  (∃ e, texts.foldlM Reading.next reading = .error e) ∨
    ∃ last, texts.foldlM Reading.next reading = .ok last ∧ last.Stuck

theorem Fails.cons {rest : List String}
    (h : (∃ e, reading.next text = .error e) ∨
      ∃ last, reading.next text = .ok last ∧ last.Fails rest) : reading.Fails (text :: rest) := by
  unfold Fails
  rw [List.foldlM_cons]
  obtain ⟨e, herror⟩ | ⟨last, hlast, hfails⟩ := h
  · rw [herror]
    exact Or.inl ⟨e, rfl⟩
  · rw [hlast]
    exact hfails

theorem Stuck.fails (h : reading.Stuck) (texts : List String) : reading.Fails texts := by
  induction texts generalizing reading with
  | nil => exact Or.inr ⟨reading, rfl, h⟩
  | cons text rest ih =>
    apply Fails.cons
    obtain herror | ⟨last, hlast, hstuck⟩ := h.step text
    · exact Or.inl herror
    · exact Or.inr ⟨last, hlast, ih hstuck⟩

theorem fails_of_name (hliteral : reading.literal = false) (hargument : argument ≠ .patch)
    (hvalue : argument.takesValue = true) (h : argument.Rejects value) (after : List String) :
    reading.Fails (("--" ++ argument.name ++ "=" ++ value) :: after) := by
  apply Fails.cons
  rw [next_name hliteral hargument hvalue]
  cases reading.settle with
  | error e => exact Or.inl ⟨e, rfl⟩
  | ok settled => exact Or.inl (exists_error_of_rejects h settled)

theorem fails_of_bare (hliteral : reading.literal = false) (hargument : argument ≠ .patch)
    (hvalue : argument.takesValue = true) (h : argument.Rejects value) (after : List String) :
    reading.Fails (("--" ++ argument.name) :: value :: after) := by
  apply Fails.cons
  rw [next_bare hliteral hargument hvalue]
  cases reading.settle with
  | error e => exact Or.inl ⟨e, rfl⟩
  | ok settled =>
    have hpending : ({ settled with pending := some (argument, none) } : Reading).pending
        = some (argument, none) := rfl
    refine Or.inr ⟨_, rfl, Fails.cons ?_⟩
    obtain herror | ⟨last, hlast, hstuck⟩ := step_of_missing hpending hvalue h
    · exact Or.inl herror
    · exact Or.inr ⟨last, hlast, hstuck.fails after⟩

end Reading

theorem exists_error_of_fails {before texts : List String} (hbefore : "--" ∉ before)
    (h : ∀ reading : Reading, reading.literal = false → reading.Fails texts) :
    ∃ e, parse (before ++ texts) = .error e := by
  unfold parse
  rw [List.foldlM_append]
  cases hread : before.foldlM Reading.next {} with
  | error e => exact ⟨e, rfl⟩
  | ok reading =>
    have hliteral : reading.literal = false :=
      Reading.keeps_literal.foldlM rfl (fun hmem => absurd hmem hbefore) hread
    show ∃ e, (texts.foldlM Reading.next reading >>= _) = .error e
    obtain ⟨e, herror⟩ | ⟨last, hlast, hstuck⟩ := h reading hliteral
    · rw [herror]
      exact ⟨e, rfl⟩
    · obtain ⟨e, herror⟩ := hstuck.exists_error
      rw [hlast]
      show ∃ e, (last.settle >>= _) = .error e
      rw [herror]
      exact ⟨e, rfl⟩

inductive Reading.Holds : List Assignment → Options → Reading → Prop where
  | settled (assignments : List Assignment) (options : Options) :
      Holds assignments options
        { options, given := (assignments.map Assignment.argument).reverse }
  | putOff (assignments : List Assignment) {options after : Options} {path : String}
      (hfresh : Assignment.Fresh assignments { argument := .patch, value := path })
      (hafter : Argument.enter path options .patch = .ok after) :
      Holds (assignments ++ [{ argument := .patch, value := path }]) after
        { options, given := (assignments.map Assignment.argument).reverse,
          pending := some (.patch, some path) }

namespace Reading

variable {assignments : List Assignment} {assignment : Assignment} {options after : Options}
  {reading : Reading}

theorem enter_assignment (hfresh : Assignment.Fresh assignments assignment)
    (hafter : assignment.enter options = .ok after) :
    enter { options, given := (assignments.map Assignment.argument).reverse }
        assignment.argument (some assignment.value)
      = .ok { options := after,
              given := ((assignments ++ [assignment]).map Assignment.argument).reverse } := by
  have hgiven : (!assignment.argument.repeats
      && (assignments.map Assignment.argument).reverse.contains assignment.argument) = false := by
    obtain hrepeats | hmem := hfresh
    · simp [hrepeats]
    · simp [hmem]
  have hentered : assignment.argument.enter assignment.value options = .ok after := hafter
  rw [enter]
  dsimp only
  rw [if_neg (by simp), hgiven, if_neg (by decide), hentered]
  simp [bind, Except.bind, pure, Except.pure]

theorem Holds.settle (h : Holds assignments options reading) :
    reading.settle
      = .ok { options, given := (assignments.map Assignment.argument).reverse } := by
  cases h with
  | settled => rfl
  | putOff _ hfresh hafter => exact enter_assignment hfresh hafter

theorem Holds.literal (h : Holds assignments options reading) : reading.literal = false := by
  cases h <;> rfl

theorem next_of_head?_ne {text : String} (hliteral : reading.literal = false)
    (hpending : reading.pending = none) (h : text.toList.head? ≠ some '-') :
    reading.next text = reading.positional text := by
  unfold Reading.next
  rw [hliteral, if_neg (by decide)]
  split
  next hdash => exact absurd (congrArg List.head? hdash) h
  next hdash => exact absurd (congrArg List.head? hdash) h
  next hdash => exact absurd (congrArg List.head? hdash) h
  next => rw [hpending]

theorem Holds.next (h : Holds assignments options reading) (hassignment : assignment.WellFormed)
    (hfresh : Assignment.Fresh assignments assignment)
    (hafter : assignment.enter options = .ok after) :
    ∃ last, reading.next assignment.text = .ok last ∧
      Holds (assignments ++ [assignment]) after last := by
  by_cases hpatch : assignment.argument = .patch
  · obtain ⟨argument, path⟩ := assignment
    cases hpatch
    have hmem : Argument.patch ∉ assignments.map Assignment.argument :=
      hfresh.resolve_left Bool.noConfusion
    cases h with
    | putOff => simp at hmem
    | settled =>
      refine ⟨_, ?_, Holds.putOff assignments hfresh hafter⟩
      rw [Assignment.text, if_pos rfl, next_of_head?_ne rfl rfl (hassignment.head_ne rfl),
        positional, (Holds.settled assignments options).settle]
      simp [hmem, bind, Except.bind, pure, Except.pure]
  · refine ⟨_, ?_, Holds.settled (assignments ++ [assignment]) after⟩
    rw [Assignment.text, if_neg hpatch, next_name h.literal hpatch hassignment.takesValue, h.settle]
    exact enter_assignment hfresh hafter

theorem Holds.foldlM {rest : List Assignment} {last : Options}
    (h : Holds assignments options reading)
    (hrest : ∀ assignment ∈ rest, assignment.WellFormed)
    (honce : Assignment.Once (assignments ++ rest))
    (hlast : rest.foldlM Assignment.enter options = .ok last) :
    ∃ final, (rest.map Assignment.text).foldlM Reading.next reading = .ok final ∧
      Holds (assignments ++ rest) last final := by
  induction rest generalizing assignments options reading with
  | nil =>
    cases hlast
    exact ⟨reading, rfl, by rwa [List.append_nil]⟩
  | cons assignment rest ih =>
    rw [List.forall_mem_cons] at hrest
    rw [List.foldlM_cons] at hlast
    obtain ⟨entered, hentered, hlast⟩ := exists_ok_of_bind hlast
    obtain ⟨next, hnext, hholds⟩ := h.next hrest.1 honce.fresh hentered
    have hcons : assignments ++ assignment :: rest = assignments ++ [assignment] ++ rest := by simp
    rw [hcons] at honce ⊢
    obtain ⟨final, hfinal, hall⟩ := ih hholds hrest.2 honce hlast
    refine ⟨final, ?_, hall⟩
    rw [List.map_cons, List.foldlM_cons, hnext]
    exact hfinal

end Reading

theorem not_mem_argument {assignments : List Assignment} {argument : Argument}
    (h : ∀ assignment ∈ assignments, assignment.WellFormed)
    (hvalue : argument.takesValue = false) :
    argument ∉ assignments.map Assignment.argument := by
  intro hmem
  obtain ⟨assignment, hassignment, rfl⟩ := List.mem_map.1 hmem
  rw [(h assignment hassignment).takesValue] at hvalue
  cases hvalue

theorem parse_text {assignments : List Assignment} {options : Options}
    (h : ∀ assignment ∈ assignments, assignment.WellFormed) (honce : Assignment.Once assignments)
    (hoptions : assignments.foldlM Assignment.enter {} = .ok options) :
    parse (assignments.map Assignment.text) = .ok options := by
  obtain ⟨last, hlast, hholds⟩ := (Reading.Holds.settled [] {}).foldlM h honce hoptions
  have hread : (assignments.map Assignment.text).foldlM Reading.next {} = .ok last := hlast
  have hquiet : (assignments.map Assignment.argument).reverse.contains Argument.quiet = false := by
    rw [← Bool.not_eq_true, List.contains_iff_mem, List.mem_reverse]
    exact not_mem_argument h rfl
  have hsettle : last.settle
      = .ok { options, given := (assignments.map Assignment.argument).reverse } :=
    hholds.settle
  rw [parse, hread]
  show (last.settle >>= _) = _
  rw [hsettle]
  show (if _ then _ else _) = _
  rw [hquiet, if_neg (by simp)]
  rfl

theorem reads_parse : Reads parse := by
  constructor
  · intro assignments options h honce hoptions
    exact parse_text h honce hoptions
  · intro before after argument value hbefore hargument hvalue hrejects
    exact ⟨exists_error_of_fails hbefore fun _ hliteral =>
        Reading.fails_of_name hliteral hargument hvalue hrejects after,
      exists_error_of_fails hbefore fun _ hliteral =>
        Reading.fails_of_bare hliteral hargument hvalue hrejects after⟩

end Options
end PatchSynth
