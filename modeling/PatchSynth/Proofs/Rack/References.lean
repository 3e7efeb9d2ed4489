import Mathlib.Algebra.BigOperators.Intervals
import PatchSynth.Proofs.Rack.Release

/-!
This module contains the counts of references. They cover all references to a node: those from
outside, and those of nodes that are counted themselves. So when the last one of some references is
given up, none is left, and a node that the kept references lead to is never touched.
-/

namespace PatchSynth
namespace Rack

def inputsOf (rack : Rack) (id : Nat) : List Nat :=
  match rack.nodes[id]? with
  | some node => node.device.inputs
  | none => []

/--
The nodes that some nodes lead to: these themselves and all that they are wired to.
-/
inductive Alive (rack : Rack) (roots : List Nat) : Nat → Prop where
  | root {id : Nat} (hmem : id ∈ roots) : Alive rack roots id
  | input {id input : Nat} (h : Alive rack roots id) (hmem : input ∈ rack.inputsOf id) :
      Alive rack roots input

def usesFrom (rack : Rack) (counts : Array Nat) (first id : Nat) : Nat :=
  ∑ user ∈ Finset.Ico first rack.nodes.size,
    if 0 < counts.getD user 0 then (rack.inputsOf user).count id else 0

structure CoversFrom (rack : Rack) (roots : List Nat) (counts : Array Nat) (first : Nat) :
    Prop where
  size_eq : counts.size = rack.nodes.size
  le : ∀ id < rack.nodes.size,
    roots.count id + rack.usesFrom counts first id ≤ counts.getD id 0

variable {rack base next : Rack} {roots more : List Nat} {counts : Array Nat} {id first : Nat}

theorem inputsOf_of_shape (h : next.shape = rack.shape) : next.inputsOf = rack.inputsOf := by
  funext id
  unfold inputsOf
  cases hnode : rack.nodes[id]? with
  | none => rw [none_of_shape h.symm hnode]
  | some node =>
    obtain ⟨twin, htwin, hdevice, -⟩ := exists_of_shape h.symm hnode
    simp only [htwin, hdevice]

theorem WellFormed.lt_of_mem_inputsOf (h : rack.WellFormed) {input : Nat}
    (hmem : input ∈ rack.inputsOf id) : input < id ∧ id < rack.nodes.size := by
  unfold inputsOf at hmem
  split at hmem
  next node hnode =>
    obtain ⟨hlt, -⟩ := Array.getElem?_eq_some_iff.1 hnode
    exact ⟨h.inputs_lt hnode input hmem, hlt⟩
  next => cases hmem

theorem Alive.mono (h : rack.Alive roots id) (hsub : ∀ root ∈ roots, root ∈ more) :
    rack.Alive more id := by
  induction h with
  | root hmem => exact Alive.root (hsub _ hmem)
  | input _ hmem ih => exact ih.input hmem

theorem alive_of_shape (h : next.shape = rack.shape) : next.Alive roots = rack.Alive roots := by
  have hsub : ∀ {rack next : Rack}, next.shape = rack.shape → ∀ {id}, next.Alive roots id →
      rack.Alive roots id := by
    intro rack next h id halive
    induction halive with
    | root hmem => exact Alive.root hmem
    | input _ hmem ih =>
      rw [inputsOf_of_shape h] at hmem
      exact ih.input hmem
  funext id
  exact propext ⟨hsub h, hsub h.symm⟩

theorem WellFormed.lt_of_alive (h : rack.WellFormed)
    (hroots : ∀ root ∈ roots, root < rack.nodes.size) (halive : rack.Alive roots id) :
    id < rack.nodes.size := by
  induction halive with
  | root hmem => exact hroots _ hmem
  | input _ hmem ih =>
    have := (h.lt_of_mem_inputsOf hmem).1
    omega

theorem getElem?_eq_getD {counts : Array Nat} (h : id < counts.size) :
    counts[id]? = some (counts.getD id 0) := by
  simp [Array.getElem?_eq_getElem h]

theorem getD_modify (counts : Array Nat) (f : Nat → Nat) (id : Nat) {other : Nat}
    (hother : other < counts.size) :
    (counts.modify id f).getD other 0
      = if id = other then f (counts.getD other 0) else counts.getD other 0 := by
  simp only [Array.getD_eq_getD_getElem?, Array.getElem?_modify,
    Array.getElem?_eq_getElem hother]
  split <;> rfl

theorem size_foldl_refer (ids : List Nat) (counts : Array Nat) :
    (ids.foldl references.refer counts).size = counts.size := by
  induction ids generalizing counts with
  | nil => rfl
  | cons id rest ih => rw [List.foldl_cons, ih, references.refer, Array.size_modify]

theorem getD_foldl_refer (ids : List Nat) (counts : Array Nat) {other : Nat}
    (hother : other < counts.size) :
    (ids.foldl references.refer counts).getD other 0 = counts.getD other 0 + ids.count other := by
  induction ids generalizing counts with
  | nil => rfl
  | cons id rest ih =>
    have hrefer : other < (references.refer counts id).size := by
      rw [references.refer, Array.size_modify]
      exact hother
    rw [List.foldl_cons, ih _ hrefer, references.refer, getD_modify _ _ _ hother, List.count_cons]
    by_cases hid : id = other
    · simp only [hid, if_true, beq_self_eq_true]
      omega
    · simp only [hid, if_false, beq_false_of_ne hid, Bool.false_eq_true]
      omega

section Uses

variable {counts' : Array Nat}

theorem usesFrom_congr
    (h : ∀ user, first ≤ user → user < rack.nodes.size →
      (0 < counts'.getD user 0 ↔ 0 < counts.getD user 0)) :
    rack.usesFrom counts' first id = rack.usesFrom counts first id := by
  apply Finset.sum_congr rfl
  intro user hmem
  rw [Finset.mem_Ico] at hmem
  simp only [h user hmem.1 hmem.2]

theorem usesFrom_eq_add (hfirst : first < rack.nodes.size) :
    rack.usesFrom counts first id
      = (if 0 < counts.getD first 0 then (rack.inputsOf first).count id else 0)
        + rack.usesFrom counts (first + 1) id :=
  Finset.sum_eq_sum_Ico_succ_bot hfirst _

end Uses

theorem go_of_zero (hid : id < counts.size) (hzero : counts.getD id 0 = 0) :
    references.go rack id counts = counts := by
  rw [references.go, getElem?_eq_getD hid, hzero]

theorem go_of_pos (hid : id < counts.size) (hnode : id < rack.nodes.size)
    (hpos : 0 < counts.getD id 0) :
    references.go rack id counts = (rack.inputsOf id).foldl references.refer counts := by
  obtain ⟨count, hsucc⟩ := Nat.exists_eq_succ_of_ne_zero hpos.ne'
  have hfound : rack.nodes[id]? = some rack.nodes[id] := Array.getElem?_eq_getElem hnode
  simp only [references.go, getElem?_eq_getD hid, hsucc, hfound, inputsOf]

theorem usesFrom_foldl_refer (hrack : rack.WellFormed) (hsize : counts.size = rack.nodes.size)
    (user id : Nat) :
    rack.usesFrom ((rack.inputsOf user).foldl references.refer counts) (user + 1) id
      = rack.usesFrom counts (user + 1) id := by
  apply usesFrom_congr
  intro other hfirst hother
  -- Inputs stand before the node, so that no further node behind it gets counted.
  have hnone : (rack.inputsOf user).count other = 0 := by
    rw [List.count_eq_zero]
    intro hmem
    have := (hrack.lt_of_mem_inputsOf hmem).1
    omega
  rw [getD_foldl_refer _ _ (by omega), hnone, Nat.add_zero]

theorem CoversFrom.go (h : CoversFrom rack roots counts (id + 1)) (hrack : rack.WellFormed)
    (hid : id < rack.nodes.size) :
    CoversFrom rack roots (references.go rack id counts) id := by
  have hsize := h.size_eq
  obtain hzero | hpos := Nat.eq_zero_or_pos (counts.getD id 0)
  · rw [go_of_zero (by omega) hzero]
    refine ⟨hsize, ?_⟩
    intro other hother
    rw [usesFrom_eq_add hid, hzero]
    simpa using h.le other hother
  · rw [go_of_pos (by omega) hid hpos]
    refine ⟨by rw [size_foldl_refer, hsize], ?_⟩
    intro other hother
    have hle := h.le other hother
    have hget : ((rack.inputsOf id).foldl references.refer counts).getD other 0
        = counts.getD other 0 + (rack.inputsOf id).count other :=
      getD_foldl_refer _ _ (by omega)
    rw [usesFrom_eq_add hid, usesFrom_foldl_refer hrack hsize, hget]
    split <;> omega

theorem coversFrom_references (hrack : rack.WellFormed) (roots : List Nat) :
    CoversFrom rack roots (rack.references roots) 0 := by
  have hcount : ∀ (first : Nat) (counts : Array Nat), first ≤ rack.nodes.size →
      CoversFrom rack roots counts first →
        CoversFrom rack roots ((List.range first).foldr (references.go rack) counts) 0 := by
    intro first
    induction first with
    | zero => exact fun _ _ h => h
    | succ first ih =>
      intro counts hle h
      rw [List.range_succ, List.foldr_append]
      exact ih _ (by omega) (h.go hrack (by omega))
  apply hcount _ _ (Nat.le_refl _)
  refine ⟨by rw [size_foldl_refer, Array.size_replicate], ?_⟩
  intro other hother
  rw [getD_foldl_refer _ _ (by rw [Array.size_replicate]; exact hother)]
  simp [usesFrom]

namespace CoversFrom

theorem pos_of_alive (h : CoversFrom rack roots counts 0) (hrack : rack.WellFormed)
    (halive : rack.Alive roots id) (hid : id < rack.nodes.size) : 0 < counts.getD id 0 := by
  induction halive with
  | root hmem =>
    have hle := h.le _ hid
    have := List.count_pos_iff.2 hmem
    omega
  | @input user input _ hmem ih =>
    -- The node that the input belongs to is counted, and so are its references.
    obtain ⟨-, huser⟩ := hrack.lt_of_mem_inputsOf hmem
    have hle := h.le _ hid
    have huses : (rack.inputsOf user).count input ≤ rack.usesFrom counts 0 input := by
      unfold usesFrom
      have hterm := Finset.single_le_sum (f := fun user =>
        if 0 < counts.getD user 0 then (rack.inputsOf user).count input else 0)
        (fun _ _ => Nat.zero_le _) (Finset.mem_Ico.2 ⟨Nat.zero_le user, huser⟩)
      simpa only [ih huser, if_true] using hterm
    have := List.count_pos_iff.2 hmem
    omega

theorem tail (h : CoversFrom rack (id :: roots) counts first) :
    CoversFrom rack roots counts first := by
  refine ⟨h.size_eq, ?_⟩
  intro other hother
  have hle := h.le other hother
  rw [List.count_cons] at hle
  omega

theorem getD_give (h : CoversFrom rack roots counts first) {other : Nat}
    (hother : other < rack.nodes.size) :
    (counts.modify id (· - 1)).getD other 0
      = if id = other then counts.getD other 0 - 1 else counts.getD other 0 :=
  getD_modify _ _ _ (by rw [h.size_eq]; exact hother)

theorem give (h : CoversFrom rack (id :: roots) counts 0)
    (hmore : id < rack.nodes.size → 0 < (counts.modify id (· - 1)).getD id 0) :
    CoversFrom rack roots (counts.modify id (· - 1)) 0 := by
  refine ⟨by rw [Array.size_modify, h.size_eq], ?_⟩
  intro other hother
  have hle := h.le other hother
  have hsame : rack.usesFrom (counts.modify id (· - 1)) 0 other = rack.usesFrom counts 0 other := by
    apply usesFrom_congr
    intro user _ huser
    by_cases hid : id = user
    · subst hid
      have hpos := hmore huser
      rw [h.getD_give huser, if_pos rfl] at hpos ⊢
      omega
    · rw [h.getD_give huser, if_neg hid]
  rw [hsame, h.getD_give hother]
  rw [List.count_cons] at hle
  by_cases hid : id = other
  · simp only [hid, if_true, beq_self_eq_true] at hle ⊢
    omega
  · simp only [hid, if_false, beq_false_of_ne hid, Bool.false_eq_true] at hle ⊢
    omega

theorem give_last (h : CoversFrom rack (id :: roots) counts 0) (hid : id < rack.nodes.size)
    (hzero : (counts.modify id (· - 1)).getD id 0 = 0) :
    CoversFrom rack (rack.inputsOf id ++ roots) (counts.modify id (· - 1)) 0 := by
  have hone : counts.getD id 0 = 1 := by
    have hle := h.le id hid
    rw [h.getD_give hid, if_pos rfl] at hzero
    rw [List.count_cons_self] at hle
    omega
  refine ⟨by rw [Array.size_modify, h.size_eq], ?_⟩
  intro other hother
  have hle := h.le other hother
  have hmem : id ∈ Finset.Ico 0 rack.nodes.size := Finset.mem_Ico.2 ⟨Nat.zero_le id, hid⟩
  have huses : rack.usesFrom counts 0 other
      = (rack.inputsOf id).count other + rack.usesFrom (counts.modify id (· - 1)) 0 other := by
    unfold usesFrom
    rw [← Finset.add_sum_erase _ _ hmem, ← Finset.add_sum_erase _ _ hmem, hone, hzero]
    simp only [Nat.lt_irrefl, if_false, Nat.zero_lt_one, if_true, Nat.zero_add]
    congr 1
    apply Finset.sum_congr rfl
    intro user huser
    obtain ⟨hne, huser⟩ := Finset.mem_erase.1 huser
    rw [h.getD_give (Finset.mem_Ico.1 huser).2, if_neg (Ne.symm hne)]
  rw [List.count_append, h.getD_give hother]
  rw [huses, List.count_cons] at hle
  by_cases hsame : id = other
  · simp only [hsame, if_true, beq_self_eq_true] at hle ⊢
    omega
  · simp only [hsame, if_false, beq_false_of_ne hsame, Bool.false_eq_true] at hle ⊢
    omega

end CoversFrom

structure Spares (base rack : Rack) (roots : List Nat) (state : Array Nat × Rack) : Prop where
  covers : CoversFrom base roots state.1 0
  shape_eq : state.2.shape = base.shape
  nodes_eq : ∀ {id}, base.Alive roots id → state.2.nodes[id]? = rack.nodes[id]?

theorem spares_foldl {give : Array Nat × Rack → Nat → Array Nat × Rack} {ids : List Nat}
    (hgive : ∀ {roots : List Nat} {counts : Array Nat} {rack : Rack} {id : Nat},
      CoversFrom base (id :: roots) counts 0 → rack.shape = base.shape →
        Spares base rack roots (give (counts, rack) id))
    (h : CoversFrom base (ids ++ roots) counts 0) (hshape : rack.shape = base.shape) :
    Spares base rack roots (ids.foldl give (counts, rack)) := by
  induction ids generalizing counts rack with
  | nil => exact ⟨h, hshape, fun _ => rfl⟩
  | cons id rest ih =>
    have hfirst := hgive h hshape
    have hrest := ih hfirst.covers hfirst.shape_eq
    refine ⟨hrest.covers, hrest.shape_eq, ?_⟩
    intro other halive
    have hmore : base.Alive (rest ++ roots) other :=
      halive.mono fun root => List.mem_append_right rest
    rw [List.foldl_cons, hrest.nodes_eq halive, hfirst.nodes_eq hmore]

theorem nodes_stop_of_ne {other : Nat} (hne : id ≠ other) :
    (rack.stop id).2.nodes[other]? = rack.nodes[other]? := by
  obtain heq | ⟨files, heq⟩ := rack.snd_stop_cases id
  · rw [heq]
  · rw [heq]
    exact (getElem?_update rack id other _).trans (if_neg hne)

theorem Spares.stop {state : Array Nat × Rack} (hbase : base.WellFormed)
    (h : CoversFrom base (base.inputsOf id ++ roots) counts 0) (hid : id < base.nodes.size)
    (hzero : counts.getD id 0 = 0) (hgiven : Spares base rack roots state) :
    Spares base rack roots (state.1, (state.2.stop id).2) := by
  refine ⟨hgiven.covers, by rw [shape_stop, hgiven.shape_eq], ?_⟩
  intro other halive
  have hne : id ≠ other := by
    rintro rfl
    have hmore : base.Alive (base.inputsOf id ++ roots) id :=
      halive.mono fun root => List.mem_append_right _
    have hpos := h.pos_of_alive hbase hmore hid
    omega
  rw [nodes_stop_of_ne hne, hgiven.nodes_eq halive]

theorem spares_releaseWithin (hbase : base.WellFormed) (depth : Nat)
    (h : CoversFrom base (id :: roots) counts 0) (hshape : rack.shape = base.shape) :
    Spares base rack roots (releaseWithin depth (counts, rack) id) := by
  induction depth generalizing id roots counts rack with
  | zero => exact ⟨h.tail, hshape, fun _ => rfl⟩
  | succ depth ih =>
    have hsize : (counts.modify id (· - 1)).size = base.nodes.size := by
      rw [Array.size_modify, h.size_eq]
    have hnodes := size_nodes_of_shape hshape
    rw [releaseWithin]
    dsimp only
    split
    next node hcount hnode =>
      obtain ⟨hlt, -⟩ := Array.getElem?_eq_some_iff.1 hcount
      have hid : id < base.nodes.size := by omega
      rw [getElem?_eq_getD hlt, Option.some.injEq] at hcount
      have hinputs : node.device.inputs = base.inputsOf id := by
        rw [← inputsOf_of_shape hshape, inputsOf, hnode]
      have hcovers := h.give_last hid hcount
      rw [hinputs]
      exact Spares.stop hbase hcovers hid hcount (spares_foldl ih hcovers hshape)
    next hcases =>
      -- The node has more references, or it never stood.
      refine ⟨h.give ?_, hshape, fun _ => rfl⟩
      intro hid
      rw [Nat.pos_iff_ne_zero]
      intro hzero
      have hcount : (counts.modify id (· - 1))[id]? = some 0 := by
        rw [getElem?_eq_getD (by omega), hzero]
      have hlt : id < rack.nodes.size := by omega
      exact hcases _ hcount (Array.getElem?_eq_getElem hlt)

theorem shape_release (rack : Rack) (kept released : List Nat) :
    (rack.release kept released).shape = rack.shape :=
  keep_release (P := fun next => next.shape = rack.shape)
    (fun id hshape => (shape_stop _ id).trans hshape) rfl kept released

theorem WellFormed.nodes_release (h : rack.WellFormed) (kept released : List Nat)
    (halive : rack.Alive kept id) :
    (rack.release kept released).nodes[id]? = rack.nodes[id]? := by
  have hcovers := coversFrom_references h (kept ++ released)
  have hswapped : CoversFrom rack (released ++ kept) (rack.references (kept ++ released)) 0 := by
    refine ⟨hcovers.size_eq, ?_⟩
    intro other hother
    rw [List.perm_append_comm.count_eq]
    exact hcovers.le other hother
  exact (spares_foldl (spares_releaseWithin h _) hswapped rfl).nodes_eq halive

end Rack
end PatchSynth
