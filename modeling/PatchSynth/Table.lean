import PatchSynth.Rack.Basic

/-!
This module contains the table of named instances. Names stand in the order in which they were first
defined; a later definition of a name takes the place of the earlier one. Names are looked up in an
index, which says at which place each of them stands. The constants that stand for numbers have no
name and are kept beside.
-/

namespace PatchSynth

structure Table where
  entries : List (String × Nat) := []
  index : List (String × Nat) := (entries.map (·.1)).zipIdx
  anonymous : List Nat := []
  indexed : index = (entries.map (·.1)).zipIdx := by rfl

namespace Table

def empty : Table := {}

def get? (table : Table) (name : String) : Option Nat :=
  (table.index.lookup name).bind fun slot => table.entries[slot]?.map (·.2)

def contains (table : Table) (name : String) : Bool :=
  (table.index.lookup name).isSome

theorem names_modify (entries : List (String × Nat)) (slot id : Nat) :
    (entries.modify slot fun entry => (entry.1, id)).map (·.1) = entries.map (·.1) := by
  induction entries generalizing slot with
  | nil => simp
  | cons entry entries ih => cases slot <;> simp [ih]

/--
Bind a name, and return the node that it was bound to before. A known name keeps its place, and a
new one goes to the end.
-/
def insert (table : Table) (name : String) (id : Nat) : Option Nat × Table :=
  match table.index.lookup name with
  | some slot =>
    (table.entries[slot]?.map (·.2),
      { table with
        entries := table.entries.modify slot fun entry => (entry.1, id)
        indexed := by
          rw [names_modify]
          exact table.indexed })
  | none =>
    (none,
      { table with
        entries := table.entries ++ [(name, id)]
        index := table.index ++ [(name, table.entries.length)]
        indexed := by simp [table.indexed, List.zipIdx_append] })

def insertAnonymous (table : Table) (id : Nat) : Table :=
  { table with anonymous := table.anonymous ++ [id] }

def size (table : Table) : Nat :=
  table.entries.length

def isEmpty (table : Table) : Bool :=
  table.entries.isEmpty

def anonymousCount (table : Table) : Nat :=
  table.anonymous.length

def nodes (table : Table) : List Nat :=
  table.entries.map (·.2) ++ table.anonymous

end Table
end PatchSynth
