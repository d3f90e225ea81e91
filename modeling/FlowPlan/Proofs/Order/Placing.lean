import FlowPlan.Plan.Schedule
import FlowPlan.Proofs.Order.Topological

/-!
# Order — placing nodes

Nodes are placed one at a time, from a queue of those that wait for nothing.  `d.Reaches p` holds
of the progress that placing makes.  What carries every statement about it is `Tracks`: the placed
nodes are an initial order, a node waits for as many nodes as it has predecessors that are not
placed, and the queue holds exactly the nodes that wait for none.

The node at the head of the queue is taken out of it, and then it releases what depends on it, one
node after the other.  In between, the nodes that are due to be released still wait for it; `Tallies`
says this of every point on the way.

* `Tallies.take`, `Tallies.release`: what the steps of placing a node keep.
* `tracks_of_reaches`: placing keeps `Tracks`.
* `outcome_order`: how placing ends.
-/

namespace FlowPlan

/-! ### Releasing -/

namespace Progress

variable {p : Progress}

theorem placed_release (p : Progress) (next : NodeId) : (p.release next).placed = p.placed := by
  unfold release
  split <;> rfl

/-- Releasing a node takes one off what it waits for. -/
theorem waiting_release (p : Progress) (next y : NodeId) :
    (p.release next).waiting.get? y =
      (p.waiting.get? y).map fun n => if y = next then n - 1 else n := by
  unfold release
  by_cases same : y = next
  · subst same
    cases h : p.waiting.get? y with
    | none => simp [h]
    | some n => simp [OrderedMap.get?_modify, h]
  · cases h : p.waiting.get? next <;> simp [OrderedMap.get?_modify, same]

/-- A node is ready when the last that it waits for has been placed. -/
theorem ready_release (p : Progress) (next : NodeId) :
    (p.release next).ready =
      p.ready ++ if (p.waiting.get? next).any (· ≤ 1) then [next] else [] := by
  unfold release
  cases h : p.waiting.get? next with
  | none => simp
  | some n =>
    by_cases last : n ≤ 1
    · simp [last]
    · simp [last, show n - 1 ≠ 0 by omega]

/-- Releasing distinct nodes: nothing is placed, and those that waited for one node at most are
ready. -/
theorem foldl_release {ys : List NodeId} (nodup : ys.Nodup) (p : Progress) :
    (ys.foldl release p).placed = p.placed ∧
    (ys.foldl release p).ready =
      p.ready ++ ys.filter fun y => (p.waiting.get? y).any (· ≤ 1) := by
  induction ys generalizing p with
  | nil => simp
  | cons next ys ih =>
    obtain ⟨fresh, nodup⟩ := List.nodup_cons.1 nodup
    obtain ⟨placed, ready⟩ := ih nodup (p.release next)
    refine ⟨placed.trans (p.placed_release next), ?_⟩
    have others : ys.filter (fun y => ((p.release next).waiting.get? y).any (· ≤ 1)) =
        ys.filter fun y => (p.waiting.get? y).any (· ≤ 1) := by
      refine List.filter_congr fun y mem => ?_
      have ne : y ≠ next := fun e => fresh (e ▸ mem)
      simp [waiting_release, ne]
    rw [List.foldl_cons, ready, ready_release, others, List.append_assoc, List.filter_cons]
    split <;> simp

/-- Takes the node at the head of the queue out of it and places it.  Nothing is released yet. -/
def take (p : Progress) (current : NodeId) (rest : List NodeId) : Progress :=
  { p with placed := p.placed ++ [current], ready := rest }

@[simp]
theorem placed_take (p : Progress) (current : NodeId) (rest : List NodeId) :
    (p.take current rest).placed = p.placed ++ [current] := rfl

@[simp]
theorem ready_take (p : Progress) (current : NodeId) (rest : List NodeId) :
    (p.take current rest).ready = rest := rfl

@[simp]
theorem waiting_take (p : Progress) (current : NodeId) (rest : List NodeId) :
    (p.take current rest).waiting = p.waiting := rfl

/-- Placing a node is taking it, and then releasing what depends on it. -/
theorem place_eq_foldl_release (d : Dependencies) (p : Progress) (current : NodeId)
    (rest : List NodeId) :
    p.place d current rest = (d.successors current).foldl release (p.take current rest) :=
  rfl

end Progress

namespace Dependencies

variable {d : Dependencies} {p : Progress} {x y : NodeId}

/-! ### Waiting -/

/-- `y` depends on `x`. -/
def Before (d : Dependencies) (x y : NodeId) : Prop :=
  (x, y) ∈ d.edges

instance (d : Dependencies) (x y : NodeId) : Decidable (d.Before x y) :=
  inferInstanceAs (Decidable ((x, y) ∈ d.edges))

/-- The dependencies join listed nodes, and each is noted once. -/
structure WellFormed (d : Dependencies) : Prop where
  on : IsRelationOn d.nodes d.Before
  nodup_edges : d.edges.Nodup

/-- The number of predecessors of a node that are not placed. -/
def pending (d : Dependencies) (placed : List NodeId) (y : NodeId) : Nat :=
  d.edges.countP fun e => e.2 = y && e.1 ∉ placed

theorem pending_nil (d : Dependencies) (y : NodeId) : d.pending [] y = d.inDegree y := by
  simp [pending, inDegree, List.countP_eq_length_filter]

/-- A node waits for nothing exactly if all its predecessors have been placed. -/
theorem pending_eq_zero_iff {placed : List NodeId} :
    d.pending placed y = 0 ↔ ∀ x, d.Before x y → x ∈ placed := by
  simp only [pending, List.countP_eq_zero, Prod.forall, Before]
  grind

/-- Placing a node takes it off what its successors wait for. -/
theorem pending_snoc (wf : d.WellFormed) {placed : List NodeId} {c : NodeId} (left : c ∉ placed) :
    d.pending placed y = d.pending (placed ++ [c]) y + if (c, y) ∈ d.edges then 1 else 0 := by
  have nodup := wf.nodup_edges
  unfold pending
  generalize d.edges = edges at nodup ⊢
  induction edges with
  | nil => simp
  | cons e es ih =>
    obtain ⟨fresh, nodup⟩ := List.nodup_cons.1 nodup
    rw [List.countP_cons, List.countP_cons, ih nodup]
    by_cases same : e = (c, y)
    · subst same
      simp [fresh, left]
    · have other : (c, y) ≠ e := fun h => same h.symm
      have : e.2 = y → e.1 ≠ c := fun h k => same (Prod.ext k h)
      grind

theorem mem_successors : y ∈ d.successors x ↔ d.Before x y := by
  simp [successors, Before]

/-- Pairs that are listed once each lead from a node to each of its partners once. -/
theorem nodup_map_snd_filter {pairs : List (NodeId × NodeId)} (nodup : pairs.Nodup) (x : NodeId) :
    ((pairs.filter (·.1 = x)).map Prod.snd).Nodup := by
  refine List.Nodup.map_on ?_ (nodup.filter _)
  rintro ⟨a, b⟩ ha ⟨a', b'⟩ ha' rfl
  simp_all

theorem nodup_successors (wf : d.WellFormed) (x : NodeId) : (d.successors x).Nodup :=
  nodup_map_snd_filter wf.nodup_edges x

/-- What placing a node does: it is placed, and whatever waited for nothing else is ready. -/
theorem place_eq (wf : d.WellFormed) (p : Progress) (current : NodeId) (rest : List NodeId) :
    (p.place d current rest).placed = p.placed ++ [current] ∧
    (p.place d current rest).ready =
      rest ++ (d.successors current).filter fun y => (p.waiting.get? y).any (· ≤ 1) := by
  rw [Progress.place_eq_foldl_release]
  exact Progress.foldl_release (nodup_successors wf current) (p.take current rest)

/-! ### The invariant -/

/-- The progress is what the dependencies make of the placed nodes. -/
structure Tracks (d : Dependencies) (p : Progress) : Prop where
  placed : IsInitialOrder d.nodes d.Before p.placed
  nodup_ready : p.ready.Nodup
  mem_ready : ∀ y, y ∈ p.ready ↔ y ∈ d.nodes ∧ y ∉ p.placed ∧ d.pending p.placed y = 0
  waiting : ∀ y ∈ d.nodes, p.waiting.get? y = some (d.pending p.placed y)

/-- The predecessors of a ready node are placed. -/
theorem Tracks.mem_placed_of_before (h : d.Tracks p) (ready : y ∈ p.ready) (before : d.Before x y) :
    x ∈ p.placed :=
  pending_eq_zero_iff.1 ((h.mem_ready y).1 ready).2.2 x before

/-- The progress is what the dependencies make of the placed nodes, while the node that was placed
last has yet to release the nodes of `due`: each of them still waits for it. -/
structure Tallies (d : Dependencies) (p : Progress) (due : List NodeId) : Prop where
  placed : IsInitialOrder d.nodes d.Before p.placed
  nodup_due : due.Nodup
  left_of_due : ∀ y ∈ due, y ∈ d.nodes ∧ y ∉ p.placed
  nodup_ready : p.ready.Nodup
  mem_ready : ∀ y, y ∈ p.ready ↔ y ∈ d.nodes ∧ y ∉ p.placed ∧ p.waiting.get? y = some 0
  waiting : ∀ y ∈ d.nodes,
    p.waiting.get? y = some (d.pending p.placed y + if y ∈ due then 1 else 0)

variable {next current : NodeId} {due rest : List NodeId}

/-- The counters are right at the start. -/
theorem tallies_initial (wf : d.WellFormed) : d.Tallies d.initial [] := by
  have waiting (y : NodeId) (mem : y ∈ d.nodes) :
      d.initial.waiting.get? y = some (d.inDegree y) := by
    rw [initial, OrderedMap.get?_ofList_map wf.on.nodup, if_pos mem]
  have ready (y : NodeId) : y ∈ d.initial.ready ↔ y ∈ d.nodes ∧ d.inDegree y = 0 := by
    simp [initial]
  have placed : d.initial.placed = [] := rfl
  refine ⟨.nil d.nodes d.Before, List.nodup_nil, by simp, wf.on.nodup.filter _, fun y => ?_,
    fun y mem => ?_⟩
  · rw [ready y, placed]
    exact and_congr_right fun mem => by simp [waiting y mem]
  · simp [waiting y mem, placed, pending_nil]

/-- With nothing left to release, the tally is that of a queue between two placings. -/
theorem Tallies.tracks (h : d.Tallies p []) : d.Tracks p where
  placed := h.placed
  nodup_ready := h.nodup_ready
  mem_ready y := by
    rw [h.mem_ready y]
    exact and_congr_right fun mem => by simp [h.waiting y mem]
  waiting y mem := by simp [h.waiting y mem]

/-- A node that is due to be released waits for one node at least. -/
theorem Tallies.waiting_of_mem_due (h : d.Tallies p due) (mem : y ∈ due) :
    p.waiting.get? y = some (d.pending p.placed y + 1) := by
  rw [h.waiting y (h.left_of_due y mem).1, if_pos mem]

theorem Tallies.not_mem_ready_of_mem_due (h : d.Tallies p due) (mem : y ∈ due) : y ∉ p.ready := by
  rw [h.mem_ready, h.waiting_of_mem_due mem]
  simp

/-- **Taking the head of the queue keeps the tally**: what depends on it is due to be released. -/
theorem Tallies.take (wf : d.WellFormed) (h : d.Tallies p []) (queue : p.ready = current :: rest) :
    d.Tallies (p.take current rest) (d.successors current) := by
  have atHead : current ∈ p.ready := by simp [queue]
  obtain ⟨mem, left, -⟩ := (h.mem_ready current).1 atHead
  obtain ⟨fresh, nodup⟩ := List.nodup_cons.1 (queue ▸ h.nodup_ready)
  have ready (x : NodeId) (before : d.Before x current) : x ∈ p.placed :=
    h.tracks.mem_placed_of_before atHead before
  refine ⟨h.placed.snoc mem left ready, nodup_successors wf current, fun y successor => ?_, nodup,
    fun y => ?_, fun y inNodes => ?_⟩
  · have before : d.Before current y := mem_successors.1 successor
    refine ⟨wf.on.target_mem current y before, fun inPlaced => left ?_⟩
    -- a placed node waits for nothing that is not placed, and a ready one not for itself
    rcases List.mem_append.1 inPlaced with inPlaced | same
    · exact (h.placed.forward current y before inPlaced).mem_left
    · exact ready current (List.mem_singleton.1 same ▸ before)
  · have here := h.mem_ready y
    rw [queue, List.mem_cons] at here
    by_cases same : y = current
    · subst same
      simp [fresh]
    · simpa [same] using here
  · rw [Progress.waiting_take, Progress.placed_take, h.waiting y inNodes, pending_snoc wf left]
    simp [mem_successors, Before]

/-- **Releasing a node keeps the tally**: the node waits for one node less, and it is queued if that
was the last one. -/
theorem Tallies.release (h : d.Tallies p (next :: due)) : d.Tallies (p.release next) due := by
  obtain ⟨fresh, nodup⟩ := List.nodup_cons.1 h.nodup_due
  have isDue : next ∈ next :: due := List.mem_cons_self
  obtain ⟨mem, left⟩ := h.left_of_due next isDue
  have waits := h.waiting_of_mem_due isDue
  have notReady := h.not_mem_ready_of_mem_due isDue
  refine ⟨?_, nodup, fun y inDue => ?_, ?_, fun y => ?_, fun y inNodes => ?_⟩
  · rw [p.placed_release]
    exact h.placed
  · rw [p.placed_release]
    exact h.left_of_due y (List.mem_cons_of_mem next inDue)
  · rw [p.ready_release]
    refine List.nodup_append.2 ⟨h.nodup_ready, by split <;> simp, ?_⟩
    rintro y inReady _ released rfl
    split at released
    · exact notReady (List.mem_singleton.1 released ▸ inReady)
    · cases released
  · -- It becomes ready exactly if this was the last that it waited for.
    rw [p.ready_release, p.placed_release, p.waiting_release, List.mem_append, waits]
    by_cases same : y = next
    · subst same
      simp [notReady, waits, mem, left]
    · rw [h.mem_ready y]
      simp [same]
  · rw [p.placed_release, p.waiting_release, h.waiting y inNodes]
    by_cases same : y = next
    · subst same
      simp [fresh]
    · simp [same]

theorem Tallies.foldl_release (h : d.Tallies p due) :
    d.Tallies (due.foldl Progress.release p) [] := by
  induction due generalizing p with
  | nil => exact h
  | cons next due ih => exact ih h.release

/-! ### Runs -/

/-- The progress that placing makes, as long as a link fixes the order of any two ready nodes. -/
inductive Reaches (d : Dependencies) : Progress → Prop where
  | initial : Reaches d d.initial
  | place {p : Progress} {current : NodeId} {rest : List NodeId} (reached : Reaches d p)
      (queue : p.ready = current :: rest) (ordered : d.incomparable? p.ready = none) :
      Reaches d (p.place d current rest)

/-- **The counters are right wherever the loop gets to.** -/
theorem tallies_of_reaches (wf : d.WellFormed) (h : d.Reaches p) : d.Tallies p [] := by
  induction h with
  | initial => exact tallies_initial wf
  | place _ queue _ ih =>
    rw [Progress.place_eq_foldl_release]
    exact (ih.take wf queue).foldl_release

/-- So the queue and the placed nodes can be told from the relation alone. -/
theorem tracks_of_reaches (wf : d.WellFormed) (h : d.Reaches p) : d.Tracks p :=
  (tallies_of_reaches wf h).tracks

/-- A queue has no incomparable pair exactly if any two of its nodes are comparable. -/
theorem incomparable?_eq_none_iff {queue : List NodeId} :
    d.incomparable? queue = none ↔ queue.Pairwise fun x y => d.isComparable x y := by
  induction queue with
  | nil => simp [incomparable?]
  | cons x rest ih =>
    rw [List.pairwise_cons, incomparable?]
    cases h : rest.find? fun y => !d.isComparable x y with
    | none =>
      have all : ∀ y ∈ rest, d.isComparable x y := by simpa using List.find?_eq_none.1 h
      simp only [ih]
      exact ⟨fun pairs => ⟨all, pairs⟩, And.right⟩
    | some y =>
      have holds := List.find?_some h
      simp only [reduceCtorEq, false_iff, not_and]
      intro all
      simp [all y (List.mem_of_find?_eq_some h)] at holds

/-- The pair that is found stands in the queue, in this order. -/
theorem incomparable?_eq_some {queue : List NodeId} (h : d.incomparable? queue = some (x, y)) :
    StandsBefore queue x y ∧ d.isComparable x y = false := by
  induction queue with
  | nil => cases h
  | cons z rest ih =>
    rw [incomparable?] at h
    cases found : rest.find? fun y => !d.isComparable z y with
    | none =>
      rw [found] at h
      obtain ⟨before, incomparable⟩ := ih h
      exact ⟨StandsBefore.cons_iff.2 (.inl before), incomparable⟩
    | some w =>
      rw [found] at h
      cases h
      exact ⟨StandsBefore.cons_iff.2 (.inr ⟨rfl, List.mem_of_find?_eq_some found⟩),
        by simpa using List.find?_some found⟩

/-- The loop ends with an empty queue. -/
theorem run_of_ready_eq_nil (stopped : p.ready = []) (steps : Nat) : d.run steps p = .ok p := by
  cases steps with
  | zero => rfl
  | succ steps => simp [run, stopped]

theorem run_of_ordered (queue : p.ready = current :: rest)
    (ordered : d.incomparable? p.ready = none) (steps : Nat) :
    d.run (steps + 1) p = d.run steps (p.place d current rest) := by
  rw [queue] at ordered
  simp [run, queue, ordered]

theorem run_of_incomparable (pair : d.incomparable? p.ready = some (x, y)) (steps : Nat) :
    d.run (steps + 1) p = .error (.ambiguousOrder x y) := by
  cases queue : p.ready with
  | nil =>
    rw [queue] at pair
    cases pair
  | cons current rest =>
    rw [queue] at pair
    simp [run, queue, pair]

/-- **How placing ends**: with an empty queue, or at a queue with an incomparable pair.  As many
steps as there are nodes are enough. -/
theorem run_cases (wf : d.WellFormed) (h : d.Reaches p) {steps : Nat}
    (enough : d.nodes.length ≤ p.placed.length + steps) :
    (∃ q, d.run steps p = .ok q ∧ d.Reaches q ∧ q.ready = []) ∨
    ∃ q x y, d.run steps p = .error (.ambiguousOrder x y) ∧ d.Reaches q ∧
      d.incomparable? q.ready = some (x, y) := by
  induction steps generalizing p with
  | zero =>
    have tracks := tracks_of_reaches wf h
    refine .inl ⟨p, rfl, h, List.eq_nil_iff_forall_not_mem.2 fun y ready => ?_⟩
    obtain ⟨mem, left, -⟩ := (tracks.mem_ready y).1 ready
    have full : p.placed.Perm d.nodes :=
      (tracks.placed.nodup.subperm tracks.placed.subset).perm_of_length_le enough
    exact left (full.mem_iff.2 mem)
  | succ steps ih =>
    cases queue : p.ready with
    | nil => exact .inl ⟨p, run_of_ready_eq_nil queue _, h, queue⟩
    | cons current rest =>
      cases ordered : d.incomparable? p.ready with
      | some pair => exact .inr ⟨p, pair.1, pair.2, run_of_incomparable ordered steps, h, ordered⟩
      | none =>
        rw [run_of_ordered queue ordered]
        refine ih (.place h queue ordered) ?_
        rw [(place_eq wf p current rest).1, List.length_append, List.length_singleton]
        omega

/-- What is read off where placing ends. -/
theorem order_of_run_eq_ok (run : d.run d.nodes.length d.initial = .ok p) :
    d.order = if p.placed.length = d.nodes.length then .ok p.placed
      else .error (.cycleDetected d.cycleMembers) := by
  simp only [order, orderBy, run]
  rfl

theorem order_of_run_eq_error {failure : PlanError}
    (run : d.run d.nodes.length d.initial = .error failure) : d.order = .error failure := by
  simp only [order, orderBy, run]
  rfl

/-- The outcomes of ordering, each with the progress that it is read off. -/
inductive Outcome (d : Dependencies) : Except PlanError (List NodeId) → Prop where
  | ordered {p : Progress} (reached : d.Reaches p) (stopped : p.ready = [])
      (all : p.placed.length = d.nodes.length) : Outcome d (.ok p.placed)
  | stalled {p : Progress} (reached : d.Reaches p) (stopped : p.ready = [])
      (some : p.placed.length ≠ d.nodes.length) : Outcome d (.error (.cycleDetected d.cycleMembers))
  | ambiguous {p : Progress} {x y : NodeId} (reached : d.Reaches p)
      (pair : d.incomparable? p.ready = some (x, y)) : Outcome d (.error (.ambiguousOrder x y))

/-- **The outcome of ordering is one of those described.** -/
theorem outcome_order (wf : d.WellFormed) : d.Outcome d.order := by
  rcases run_cases wf .initial (Nat.le_add_left d.nodes.length d.initial.placed.length) with
    ⟨p, run, reached, stopped⟩ | ⟨p, x, y, run, reached, pair⟩
  · rw [order_of_run_eq_ok run]
    split
    · next all => exact .ordered reached stopped all
    · next some => exact .stalled reached stopped some
  · rw [order_of_run_eq_error run]
    exact .ambiguous reached pair

/-- An ambiguity is found between two nodes that are ready at once. -/
theorem ready_of_ambiguousOrder (wf : d.WellFormed)
    (h : d.order = .error (.ambiguousOrder x y)) :
    ∃ p, d.Tracks p ∧ StandsBefore p.ready x y ∧ d.isComparable x y = false := by
  have outcome := outcome_order wf
  rw [h] at outcome
  cases outcome with
  | ambiguous reached pair =>
    exact ⟨_, tracks_of_reaches wf reached, incomparable?_eq_some pair⟩

end Dependencies

end FlowPlan
