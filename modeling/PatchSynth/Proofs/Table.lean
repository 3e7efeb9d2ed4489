import PatchSynth.Table

/-!
This module contains what the table of named instances is after any calls that hand nodes over to
it: a map in which the names keep the order of their first definitions. The index and the entries
are kept by two different steps, but the index never says anything else than where the names stand.
-/

namespace PatchSynth
namespace Table

variable {table : Table} {name : String} {slot : Nat}

theorem lookup_zipIdx (names : List String) (first : Nat) (name : String) :
    (names.zipIdx first).lookup name = (names.idxOf? name).map (· + first) := by
  induction names generalizing first with
  | nil => rfl
  | cons other names ih =>
    by_cases hname : other = name
    · simp [hname, List.idxOf?_cons]
    · have hfalse : (name == other) = false := beq_false_of_ne (Ne.symm hname)
      simp [List.lookup_cons, List.idxOf?_cons, hfalse, hname, ih, Function.comp_def, Nat.add_comm,
        Nat.add_left_comm]

theorem eraseDups_concat (names : List String) (name : String) :
    (names ++ [name]).eraseDups
      = if name ∈ names then names.eraseDups else names.eraseDups ++ [name] := by
  rw [List.eraseDups_append, List.removeAll]
  by_cases hmem : name ∈ names <;> simp [hmem, List.eraseDups_cons]

/-!
### The index
-/

theorem lookup_index (table : Table) (name : String) :
    table.index.lookup name = (table.entries.map (·.1)).idxOf? name := by
  rw [table.indexed, lookup_zipIdx]
  simp

theorem lookup_index_eq_none_iff :
    table.index.lookup name = none ↔ name ∉ table.entries.map (·.1) := by
  rw [lookup_index, List.idxOf?_eq_none_iff]

theorem mem_index_iff :
    (name, slot) ∈ table.index ↔ ∃ id, table.entries[slot]? = some (name, id) := by
  simp [table.indexed, List.mem_zipIdx_iff_getElem?]

theorem exists_entry_of_lookup_index (h : table.index.lookup name = some slot) :
    ∃ id, table.entries[slot]? = some (name, id) := by
  rw [lookup_index, List.idxOf?_eq_some_iff] at h
  obtain ⟨hlt, hname, -⟩ := h
  simpa using List.getElem?_eq_some_iff.2 ⟨hlt, hname⟩

theorem lookup_index_eq_some_iff (hnodup : (table.entries.map (·.1)).Nodup) :
    table.index.lookup name = some slot ↔ ∃ id, table.entries[slot]? = some (name, id) := by
  refine ⟨exists_entry_of_lookup_index, ?_⟩
  rintro ⟨id, hentry⟩
  have hslot : (table.entries.map (·.1))[slot]? = some name := by simp [hentry]
  obtain ⟨hlt, hname⟩ := List.getElem?_eq_some_iff.1 hslot
  rw [lookup_index, List.idxOf?_eq_some_iff]
  refine ⟨hlt, hname, ?_⟩
  intro other hother heq
  have hne := List.pairwise_iff_getElem.1 hnodup other slot (Nat.lt_trans hother hlt) hlt hother
  exact hne (heq.trans hname.symm)

/-!
### The operations
-/

theorem get?_eq_lookup (table : Table) (name : String) :
    table.get? name = table.entries.lookup name := by
  rw [get?, lookup_index]
  induction table.entries with
  | nil => rfl
  | cons entry entries ih =>
    obtain ⟨other, id⟩ := entry
    by_cases hname : other = name
    · simp [hname, List.idxOf?_cons]
    · have hfalse : (name == other) = false := beq_false_of_ne (Ne.symm hname)
      rw [List.lookup_cons, hfalse, ← ih, List.map_cons, List.idxOf?_cons,
        if_neg (by simpa using hname), Option.bind_map]
      rfl

theorem contains_eq (table : Table) (name : String) :
    table.contains name = (table.get? name).isSome := by
  rw [contains, get?]
  cases h : table.index.lookup name with
  | none => rfl
  | some slot =>
    obtain ⟨id, hentry⟩ := exists_entry_of_lookup_index h
    simp [hentry]

theorem fst_insert (table : Table) (name : String) (id : Nat) :
    (table.insert name id).1 = table.get? name := by
  rw [insert, get?]
  split
  next slot h => rw [h, Option.bind_some]
  next h => rw [h, Option.bind_none]

theorem anonymous_insert (table : Table) (name : String) (id : Nat) :
    (table.insert name id).2.anonymous = table.anonymous := by
  rw [insert]
  split <;> rfl

theorem names_insert (table : Table) (name : String) (id : Nat) :
    (table.insert name id).2.entries.map (·.1)
      = if name ∈ table.entries.map (·.1) then
          table.entries.map (·.1)
        else
          table.entries.map (·.1) ++ [name] := by
  by_cases hmem : name ∈ table.entries.map (·.1)
  · rw [if_pos hmem, insert]
    split
    next slot _ => exact names_modify table.entries slot id
    next h => exact absurd hmem (lookup_index_eq_none_iff.1 h)
  · rw [if_neg hmem, insert, lookup_index_eq_none_iff.2 hmem]
    simp

theorem get?_insert (table : Table) (name other : String) (id : Nat) :
    (table.insert name id).2.get? other = if other = name then some id else table.get? other := by
  rw [insert]
  split
  next slot h =>
    obtain ⟨old, hslot⟩ := exists_entry_of_lookup_index h
    dsimp only [get?]
    by_cases hname : other = name
    · simp [hname, h, List.getElem?_modify, hslot]
    · rw [if_neg hname]
      cases hother : table.index.lookup other with
      | none => rfl
      | some place =>
        obtain ⟨found, hplace⟩ := exists_entry_of_lookup_index hother
        have hne : slot ≠ place := by
          rintro rfl
          rw [hslot] at hplace
          cases hplace
          exact hname rfl
        rw [Option.bind_some, Option.bind_some, List.getElem?_modify_ne _ _ hne]
  next h =>
    dsimp only [get?]
    rw [List.lookup_append]
    by_cases hname : other = name
    · simp [hname, h]
    · rw [if_neg hname]
      cases hother : table.index.lookup other with
      | none => simp [List.lookup_cons, beq_false_of_ne hname]
      | some place =>
        obtain ⟨found, hplace⟩ := exists_entry_of_lookup_index hother
        have hlt : place < table.entries.length := (List.getElem?_eq_some_iff.1 hplace).1
        simp [List.getElem?_append_left hlt]

/-!
### Calls
-/

inductive Call where
  | insert (name : String) (id : Nat)
  | insertAnonymous (id : Nat)

namespace Call

def name? : Call → Option String
  | insert name _ => some name
  | insertAnonymous _ => none

def idFor? (name : String) : Call → Option Nat
  | insert other id => if other = name then some id else none
  | insertAnonymous _ => none

def isAnonymous : Call → Bool
  | insert _ _ => false
  | insertAnonymous _ => true

variable {calls : List Call}

def names (calls : List Call) : List String :=
  calls.filterMap name?

def idsFor (name : String) (calls : List Call) : List Nat :=
  calls.filterMap (idFor? name)

theorem names_concat (calls : List Call) (call : Call) :
    names (calls ++ [call]) = names calls ++ call.name?.toList := by
  rw [names, List.filterMap_append]
  cases call <;> rfl

theorem idsFor_concat (name : String) (calls : List Call) (call : Call) :
    idsFor name (calls ++ [call]) = idsFor name calls ++ (call.idFor? name).toList := by
  rw [idsFor, List.filterMap_append, ← idsFor, List.filterMap_cons]
  cases call.idFor? name <;> rfl

theorem idsFor_eq_nil_iff : idsFor name calls = [] ↔ name ∉ names calls := by
  simp only [idsFor, names, List.filterMap_eq_nil_iff, List.mem_filterMap, not_exists, not_and]
  refine forall_congr' fun call => imp_congr_right fun _ => ?_
  cases call <;> simp [idFor?, name?]

end Call

def perform (table : Table) : Call → Option Nat × Table
  | .insert name id => table.insert name id
  | .insertAnonymous id => (none, table.insertAnonymous id)

def performAll (table : Table) : List Call → List (Option Nat) × Table
  | [] => ([], table)
  | call :: calls =>
    let (old, next) := table.perform call
    let (olds, last) := next.performAll calls
    (old :: olds, last)

variable {calls : List Call}

structure Holds (table : Table) (calls : List Call) : Prop where
  names_eq : table.entries.map (·.1) = (Call.names calls).eraseDups
  nodup : (table.entries.map (·.1)).Nodup
  get?_eq : ∀ name, table.get? name = (Call.idsFor name calls).getLast?
  anonymousCount_eq : table.anonymousCount = calls.countP Call.isAnonymous

namespace Holds

theorem empty : Table.empty.Holds [] :=
  ⟨rfl, List.nodup_nil, fun _ => rfl, rfl⟩

theorem insert (h : table.Holds calls) (name : String) (id : Nat) :
    (table.insert name id).2.Holds (calls ++ [.insert name id]) := by
  refine ⟨?_, ?_, ?_, ?_⟩
  · rw [names_insert, Call.names_concat, h.names_eq]
    simp only [Call.name?, Option.toList_some, eraseDups_concat, List.mem_eraseDups]
  · rw [names_insert]
    split
    next => exact h.nodup
    next hmem =>
      refine List.nodup_append.2 ⟨h.nodup, List.pairwise_singleton _ name, ?_⟩
      rintro other hother last hlast rfl
      exact hmem (List.mem_singleton.1 hlast ▸ hother)
  · intro other
    rw [get?_insert, Call.idsFor_concat, List.getLast?_append, ← h.get?_eq, Call.idFor?]
    by_cases hname : name = other
    · simp [hname]
    · simp [hname, Ne.symm hname]
  · rw [anonymousCount, anonymous_insert, List.countP_append]
    exact h.anonymousCount_eq

theorem insertAnonymous (h : table.Holds calls) (id : Nat) :
    (table.insertAnonymous id).Holds (calls ++ [.insertAnonymous id]) := by
  refine ⟨?_, h.nodup, ?_, ?_⟩
  · rw [Call.names_concat, Call.name?, Option.toList_none, List.append_nil]
    exact h.names_eq
  · intro name
    rw [Call.idsFor_concat, Call.idFor?, Option.toList_none, List.append_nil]
    exact h.get?_eq name
  · rw [anonymousCount, Table.insertAnonymous, List.length_append, List.countP_append,
      ← h.anonymousCount_eq]
    rfl

theorem perform (h : table.Holds calls) (call : Call) :
    (table.perform call).2.Holds (calls ++ [call]) := by
  cases call with
  | insert name id => exact h.insert name id
  | insertAnonymous id => exact h.insertAnonymous id

theorem performAll (h : table.Holds calls) (later : List Call) :
    (table.performAll later).2.Holds (calls ++ later) := by
  induction later generalizing table calls with
  | nil => rwa [List.append_nil]
  | cons call later ih =>
    rw [List.append_cons]
    exact ih (h.perform call)

end Holds

theorem getElem?_fst_performAll {name : String} {id index : Nat}
    (h : calls[index]? = some (.insert name id)) :
    (table.performAll calls).1[index]?
      = some ((table.performAll (calls.take index)).2.get? name) := by
  induction calls generalizing table index with
  | nil => simp at h
  | cons call calls ih =>
    cases index with
    | zero =>
      cases Option.some.inj h
      exact congrArg some (table.fst_insert name id)
    | succ index => exact ih h

/--
A table that was filled from nothing is a map in the order of the first definitions: its names are
the different ones that were bound, each of them stands for the node of its last binding, every
call returns what it replaces, and the index leads to all entries and nowhere else.
-/
theorem ordered_performAll (calls : List Call) :
    let (olds, table) := empty.performAll calls
    table.entries.map (·.1) = (Call.names calls).eraseDups ∧
      table.size = (Call.names calls).eraseDups.length ∧
      (∀ name, table.get? name = (Call.idsFor name calls).getLast? ∧
        (table.get? name = none ↔ name ∉ Call.names calls) ∧
        table.contains name = (table.get? name).isSome) ∧
      (∀ index name id, calls[index]? = some (.insert name id) →
        olds[index]? = some ((empty.performAll (calls.take index)).2.get? name)) ∧
      table.anonymousCount = calls.countP Call.isAnonymous ∧
      ∀ name slot, ((name, slot) ∈ table.index ↔ ∃ id, table.entries[slot]? = some (name, id)) ∧
        (table.index.lookup name = some slot ↔ (name, slot) ∈ table.index) := by
  have hholds := Holds.empty.performAll calls
  rw [List.nil_append] at hholds
  refine ⟨hholds.names_eq, ?_, ?_, ?_, hholds.anonymousCount_eq, ?_⟩
  · rw [← hholds.names_eq, List.length_map]
    rfl
  · intro name
    refine ⟨hholds.get?_eq name, ?_, contains_eq _ name⟩
    rw [hholds.get?_eq, List.getLast?_eq_none_iff, Call.idsFor_eq_nil_iff]
  · intro index name id hcall
    exact getElem?_fst_performAll hcall
  · intro name slot
    refine ⟨mem_index_iff, ?_⟩
    rw [mem_index_iff, lookup_index_eq_some_iff hholds.nodup]

example :
    let (olds, table) := empty.performAll [.insert "b" 0, .insert "a" 1, .insert "b" 2]
    olds = [none, none, some 0] ∧ table.entries = [("b", 2), ("a", 1)] := by decide

end Table
end PatchSynth
