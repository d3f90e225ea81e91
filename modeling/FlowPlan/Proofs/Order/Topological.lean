import Mathlib.Data.Fintype.Card
import Mathlib.Data.List.Chain
import Mathlib.Data.Set.Finite.Basic
import Mathlib.Logic.Relation
import Mathlib.Order.WellFounded

/-!
# Order — topological orders

Orders of finitely many nodes that put `x` in front of `y` wherever a relation leads from `x` to
`y`.  An initial order is the beginning of such an order: it may leave nodes out, but not in front
of one that it holds.

* `IsTopologicalOrder.eq_of_isChain`: an order whose neighbours are related is the only one.
* `IsInitialOrder.exists_completion`: an initial order is the beginning of a topological one, if
  the relation is acyclic.
* `IsInitialOrder.exists_two`: where two nodes may come next, there are two topological orders.
-/

namespace FlowPlan

variable {α : Type}

/-! ### Standing before -/

/-- `x` stands in front of `y` in the list. -/
def StandsBefore (xs : List α) (x y : α) : Prop :=
  [x, y].Sublist xs

instance [DecidableEq α] (xs : List α) (x y : α) : Decidable (StandsBefore xs x y) :=
  inferInstanceAs (Decidable ([x, y].Sublist xs))

namespace StandsBefore

variable {xs ys : List α} {x y z : α}

/-- What stands before what, behind a further element in front. -/
theorem cons_iff {a : α} :
    StandsBefore (a :: xs) x y ↔ StandsBefore xs x y ∨ x = a ∧ y ∈ xs := by
  simp [StandsBefore, List.sublist_cons_iff, and_comm, eq_comm]

theorem mem_left (h : StandsBefore xs x y) : x ∈ xs :=
  h.subset (by simp)

theorem mem_right (h : StandsBefore xs x y) : y ∈ xs :=
  h.subset (by simp)

theorem append_right (h : StandsBefore xs x y) (ys : List α) : StandsBefore (xs ++ ys) x y :=
  h.trans (List.sublist_append_left xs ys)

/-- Whatever stands in the front stands before whatever stands behind. -/
theorem of_mem_of_mem (hx : x ∈ xs) (hy : y ∈ ys) : StandsBefore (xs ++ ys) x y :=
  (List.singleton_sublist.2 hx).append (List.singleton_sublist.2 hy)

theorem ne (nodup : xs.Nodup) (h : StandsBefore xs x y) : x ≠ y := by
  rintro rfl
  exact List.nodup_iff_sublist.1 nodup x h

theorem trans (nodup : xs.Nodup) (h : StandsBefore xs x y) (k : StandsBefore xs y z) :
    StandsBefore xs x z := by
  induction xs with
  | nil => cases h.mem_left
  | cons a xs ih =>
    obtain ⟨fresh, nodup⟩ := List.nodup_cons.1 nodup
    -- `y` is not the head, since something stands in front of it
    have ne : y ≠ a := by
      rintro rfl
      rcases cons_iff.1 h with h | ⟨-, mem⟩
      · exact fresh h.mem_right
      · exact fresh mem
    have k' : StandsBefore xs y z := (cons_iff.1 k).resolve_right fun e => ne e.1
    rcases cons_iff.1 h with h | ⟨rfl, -⟩
    · exact cons_iff.2 (.inl (ih nodup h k'))
    · exact cons_iff.2 (.inr ⟨rfl, k'.mem_right⟩)

theorem asymm (nodup : xs.Nodup) (h : StandsBefore xs x y) : ¬StandsBefore xs y x :=
  fun k => (h.trans nodup k).ne nodup rfl

end StandsBefore

/-! ### Orders -/

/-- A relation between nodes that a list names once each. -/
structure IsRelationOn (nodes : List α) (R : α → α → Prop) : Prop where
  nodup : nodes.Nodup
  source_mem : ∀ x y, R x y → x ∈ nodes
  target_mem : ∀ x y, R x y → y ∈ nodes

/-- No way of the relation leads from a node back to itself. -/
def Acyclic (R : α → α → Prop) : Prop :=
  ∀ x, ¬Relation.TransGen R x x

/-- An order of exactly these nodes that puts `x` in front of `y` wherever the relation leads from
`x` to `y`. -/
structure IsTopologicalOrder (nodes : List α) (R : α → α → Prop) (order : List α) : Prop where
  perm : order.Perm nodes
  forward : ∀ x y, R x y → StandsBefore order x y

/-- An order of some of the nodes.  What the relation puts in front of one of them stands there. -/
structure IsInitialOrder (nodes : List α) (R : α → α → Prop) (order : List α) : Prop where
  nodup : order.Nodup
  subset : ∀ x ∈ order, x ∈ nodes
  forward : ∀ x y, R x y → y ∈ order → StandsBefore order x y

variable {nodes order : List α} {R : α → α → Prop}

namespace IsTopologicalOrder

theorem nodup (h : IsTopologicalOrder nodes R order) (on : IsRelationOn nodes R) : order.Nodup :=
  h.perm.nodup_iff.2 on.nodup

/-- **Wherever a way leads, it leads onwards.** -/
theorem standsBefore_of_transGen (h : IsTopologicalOrder nodes R order) (on : IsRelationOn nodes R)
    {x y : α} (way : Relation.TransGen R x y) : StandsBefore order x y := by
  induction way with
  | single r => exact h.forward _ _ r
  | tail _ r ih => exact ih.trans (h.nodup on) (h.forward _ _ r)

/-- A relation with a topological order is acyclic. -/
theorem acyclic (h : IsTopologicalOrder nodes R order) (on : IsRelationOn nodes R) : Acyclic R :=
  fun _ way => (h.standsBefore_of_transGen on way).ne (h.nodup on) rfl

/-- **An order whose neighbours are related is the only one.** -/
theorem eq_of_isChain (h : IsTopologicalOrder nodes R order) (on : IsRelationOn nodes R)
    (chain : order.IsChain R) {other : List α} (k : IsTopologicalOrder nodes R other) :
    other = order := by
  have ways : order.Pairwise (Relation.TransGen R) :=
    List.isChain_iff_pairwise.1 (chain.imp fun _ _ r => .single r)
  have inOrder : order.Pairwise (StandsBefore other) :=
    ways.imp fun way => k.standsBefore_of_transGen on way
  have inOther : other.Pairwise (StandsBefore other) := List.pairwise_iff_forall_sublist.2 id
  refine List.Perm.eq_of_pairwise ?_ inOther inOrder (k.perm.trans h.perm.symm)
  intro x y _ _ before after
  exact absurd after (before.asymm (k.nodup on))

end IsTopologicalOrder

/-! ### Beginnings -/

/-- Whatever the relation leads from to a node of the list is in the list. -/
def ClosedBackwards (R : α → α → Prop) (xs : List α) : Prop :=
  ∀ x y, R x y → y ∈ xs → x ∈ xs

/-- A way that leads to a node whose predecessors are all in the list starts in the list. -/
theorem ClosedBackwards.mem_of_transGen {xs : List α} (closed : ClosedBackwards R xs) {x y : α}
    (ready : ∀ z, R z y → z ∈ xs) (way : Relation.TransGen R x y) : x ∈ xs := by
  induction way using Relation.TransGen.head_induction_on with
  | single r => exact ready _ r
  | head r _ ih => exact closed _ _ r ih

/-- Some node that is left out has all that the relation puts in front of it among the others: the
nodes are finitely many, so if every way back went on, one would close. -/
theorem Acyclic.exists_next (acyclic : Acyclic R) (on : IsRelationOn nodes R)
    {placed : List α} {x : α} (mem : x ∈ nodes) (left : x ∉ placed) :
    ∃ c ∈ nodes, c ∉ placed ∧ ∀ y, R y c → y ∈ placed := by
  let way (a b : {x // x ∈ nodes}) : Prop := Relation.TransGen R a b
  have : Finite {x // x ∈ nodes} := nodes.finite_toSet.to_subtype
  have : IsTrans _ way := ⟨fun _ _ _ => .trans⟩
  have : Std.Irrefl way := ⟨fun a => acyclic a⟩
  obtain ⟨⟨c, hc⟩, left, first⟩ :=
    (Finite.wellFounded_of_trans_of_irrefl way).has_min {a | a.1 ∉ placed} ⟨⟨x, mem⟩, left⟩
  refine ⟨c, hc, left, fun y r => ?_⟩
  by_contra h
  exact first ⟨y, on.source_mem y c r⟩ h (.single r)

namespace IsInitialOrder

theorem nil (nodes : List α) (R : α → α → Prop) : IsInitialOrder nodes R [] :=
  ⟨List.nodup_nil, by simp, by simp⟩

/-- A node goes to the end once all that the relation puts in front of it is there. -/
theorem snoc (h : IsInitialOrder nodes R order) {c : α} (mem : c ∈ nodes) (left : c ∉ order)
    (ready : ∀ y, R y c → y ∈ order) : IsInitialOrder nodes R (order ++ [c]) where
  nodup := List.nodup_append.2 ⟨h.nodup, by simp, by rintro a ha _ hb rfl; simp_all⟩
  subset x hx := by
    rcases List.mem_append.1 hx with hx | hx
    · exact h.subset x hx
    · rwa [List.mem_singleton.1 hx]
  forward x y r hy := by
    rcases List.mem_append.1 hy with hy | hy
    · exact (h.forward x y r hy).append_right [c]
    · obtain rfl := List.mem_singleton.1 hy
      exact .of_mem_of_mem (ready x r) (by simp)

theorem closedBackwards (h : IsInitialOrder nodes R order) : ClosedBackwards R order :=
  fun x y r mem => (h.forward x y r mem).mem_left

theorem length_le (h : IsInitialOrder nodes R order) : order.length ≤ nodes.length :=
  (h.nodup.subperm h.subset).length_le

/-- An initial order of as many nodes as there are is topological. -/
theorem toTopological (h : IsInitialOrder nodes R order) (on : IsRelationOn nodes R)
    (full : order.length = nodes.length) : IsTopologicalOrder nodes R order := by
  have perm : order.Perm nodes := (h.nodup.subperm h.subset).perm_of_length_le full.ge
  exact ⟨perm, fun x y r => h.forward x y r (perm.mem_iff.2 (on.target_mem x y r))⟩

/-- A shorter initial order leaves a node out. -/
theorem exists_left (h : IsInitialOrder nodes R order) (on : IsRelationOn nodes R)
    (short : order.length ≠ nodes.length) : ∃ x ∈ nodes, x ∉ order := by
  by_contra! none
  exact short (le_antisymm h.length_le (on.nodup.subperm none).length_le)

/-- **An initial order is the beginning of a topological one**, if the relation is acyclic. -/
theorem exists_completion (h : IsInitialOrder nodes R order) (on : IsRelationOn nodes R)
    (acyclic : Acyclic R) : ∃ rest, IsTopologicalOrder nodes R (order ++ rest) := by
  obtain ⟨missing, enough⟩ := Nat.exists_eq_add_of_le h.length_le
  induction missing generalizing order with
  | zero => exact ⟨[], by simpa using h.toTopological on enough.symm⟩
  | succ missing ih =>
    obtain ⟨x, mem, left⟩ := h.exists_left on (by omega)
    obtain ⟨c, mem, left, ready⟩ := acyclic.exists_next on mem left
    obtain ⟨rest, topo⟩ := ih (h.snoc mem left ready) (by simp; omega)
    exact ⟨c :: rest, by simpa using topo⟩

/-- **Where two nodes may come next, there are two topological orders.** -/
theorem exists_two (h : IsInitialOrder nodes R order) (on : IsRelationOn nodes R)
    (acyclic : Acyclic R) {x y : α} (ne : x ≠ y) (mem_x : x ∈ nodes) (mem_y : y ∈ nodes)
    (left_x : x ∉ order) (left_y : y ∉ order)
    (ready_x : ∀ z, R z x → z ∈ order) (ready_y : ∀ z, R z y → z ∈ order) :
    ∃ a b, IsTopologicalOrder nodes R a ∧ IsTopologicalOrder nodes R b ∧ a ≠ b := by
  obtain ⟨restx, hx⟩ := (h.snoc mem_x left_x ready_x).exists_completion on acyclic
  obtain ⟨resty, hy⟩ := (h.snoc mem_y left_y ready_y).exists_completion on acyclic
  refine ⟨_, _, hx, hy, fun e => ne ?_⟩
  simp only [List.append_assoc, List.singleton_append] at e
  exact (List.cons.inj (List.append_cancel_left e)).1

end IsInitialOrder

end FlowPlan
