import FlowPlan.Proofs.Order.Recorded

/-!
# Order — counters

Every operation has a counter, which starts at the number of operations that it depends on.  Placing
an operation counts down what depends on it, one operation after the other, and queues those whose
counter comes to zero.  `d.Visits i p due` holds of the points of this loop: of the progress `p`
after `i` placings, while the nodes of `due` are still to be counted down.

* `visits_iff_run`: between two placings, the points are what `run` makes in so many steps.
* `KeepsCount`: what the counters and the queue hold at a point.
* `counters_exact`: every point keeps count, so that nothing is taken off a counter of zero, nothing
  is queued twice, and the loop ends after as many placings as there are operations, if not before.
-/

namespace FlowPlan

namespace Dependencies

variable {d : Dependencies} {p q : Progress} {i : Nat} {due : List NodeId}

/-! ### Points -/

/-- The points that placing comes to, as long as a link fixes the order of any two ready nodes: how
many nodes have been placed, the progress, and which nodes the last of them has yet to release. -/
inductive Visits (d : Dependencies) : Nat → Progress → List NodeId → Prop where
  | initial : Visits d 0 d.initial []
  | take {i : Nat} {p : Progress} {current : NodeId} {rest : List NodeId} (visited : Visits d i p [])
      (queue : p.ready = current :: rest) (ordered : d.incomparable? p.ready = none) :
      Visits d (i + 1) (p.take current rest) (d.successors current)
  | release {i : Nat} {p : Progress} {next : NodeId} {due : List NodeId}
      (visited : Visits d i p (next :: due)) : Visits d i (p.release next) due

/-- The loop goes no further: the queue is empty, or no link fixes the order of two of its nodes. -/
inductive Ends (d : Dependencies) (p : Progress) : Except PlanError Progress → Prop where
  | drained (stopped : p.ready = []) : Ends d p (.ok p)
  | ambiguous {x y : NodeId} (pair : d.incomparable? p.ready = some (x, y)) :
      Ends d p (.error (.ambiguousOrder x y))

/-- Every point keeps the tally. -/
theorem tallies_of_visits (wf : d.WellFormed) (h : d.Visits i p due) : d.Tallies p due := by
  induction h with
  | initial => exact tallies_initial wf
  | take _ queue _ ih => exact ih.take wf queue
  | release _ ih => exact ih.release

theorem Visits.length_placed (h : d.Visits i p due) : p.placed.length = i := by
  induction h with
  | initial => rfl
  | take _ _ _ ih => simp [ih]
  | release _ ih => rw [Progress.placed_release, ih]

/-- The releases of one step are all visited. -/
theorem Visits.foldl_release (h : d.Visits i p due) :
    d.Visits i (due.foldl Progress.release p) [] := by
  induction due generalizing p with
  | nil => exact h
  | cons next due ih => exact ih h.release

/-- Placing a node leads to the next point without anything left to release. -/
theorem Visits.place (h : d.Visits i p []) {current : NodeId} {rest : List NodeId}
    (queue : p.ready = current :: rest) (ordered : d.incomparable? p.ready = none) :
    d.Visits (i + 1) (p.place d current rest) [] := by
  rw [Progress.place_eq_foldl_release]
  exact (h.take queue ordered).foldl_release

/-- Whatever the loop gets to, it visits. -/
theorem exists_visits_of_reaches (h : d.Reaches p) : ∃ i, d.Visits i p [] := by
  induction h with
  | initial => exact ⟨0, .initial⟩
  | place _ queue ordered ih =>
    obtain ⟨i, visited⟩ := ih
    exact ⟨i + 1, visited.place queue ordered⟩

/-- A run passes by every point, once what is due there is released. -/
theorem Visits.run_eq (h : d.Visits i p due) (steps : Nat) :
    d.run (i + steps) d.initial = d.run steps (due.foldl Progress.release p) := by
  induction h generalizing steps with
  | initial => rw [Nat.zero_add]; rfl
  | @take i p current rest _ queue ordered ih =>
    -- one step of the run takes the node and makes all its releases
    calc d.run (i + 1 + steps) d.initial
      _ = d.run (i + (steps + 1)) d.initial := by rw [Nat.add_assoc, Nat.add_comm 1]
      _ = d.run (steps + 1) p := ih (steps + 1)
      _ = d.run steps (p.place d current rest) := run_of_ordered queue ordered steps
      _ = _ := by rw [Progress.place_eq_foldl_release]
  | release _ ih => exact ih steps

theorem exists_visits_of_run (h : d.Visits i p []) {steps : Nat} (run : d.run steps p = .ok q) :
    ∃ j, d.Visits j q [] := by
  induction steps generalizing i p with
  | zero =>
    cases run
    exact ⟨i, h⟩
  | succ steps ih =>
    cases queue : p.ready with
    | nil =>
      rw [run_of_ready_eq_nil queue] at run
      cases run
      exact ⟨i, h⟩
    | cons current rest =>
      cases ordered : d.incomparable? p.ready with
      | some pair =>
        rw [run_of_incomparable ordered] at run
        cases run
      | none =>
        rw [run_of_ordered queue ordered] at run
        exact ih (h.place queue ordered) run

/-- **Between two placings, the points are what a run makes in so many steps.** -/
theorem visits_iff_run : d.Visits i p [] ↔ d.run i d.initial = .ok p ∧ p.placed.length = i := by
  constructor
  · intro visited
    exact ⟨visited.run_eq 0, visited.length_placed⟩
  · rintro ⟨run, length⟩
    obtain ⟨j, visited⟩ := exists_visits_of_run .initial run
    obtain rfl : j = i := visited.length_placed.symm.trans length
    exact visited

/-- Enough steps end the loop. -/
theorem exists_ends (wf : d.WellFormed) {steps : Nat} (enough : d.nodes.length ≤ steps) :
    ∃ i p, d.Visits i p [] ∧ d.Ends p (d.run steps d.initial) := by
  rcases run_cases wf .initial (Nat.le_add_left_of_le enough) with
    ⟨p, run, reached, stopped⟩ | ⟨p, x, y, run, reached, pair⟩
  · obtain ⟨i, visited⟩ := exists_visits_of_reaches reached
    exact ⟨i, p, visited, run ▸ .drained stopped⟩
  · obtain ⟨i, visited⟩ := exists_visits_of_reaches reached
    exact ⟨i, p, visited, run ▸ .ambiguous pair⟩

/-! ### The queue -/

/-- What has come into the queue is placed or still there, and came once. -/
theorem Tallies.nodup_queued (h : d.Tallies p due) : (p.placed ++ p.ready).Nodup := by
  refine List.nodup_append.2 ⟨h.placed.nodup, h.nodup_ready, ?_⟩
  rintro y inPlaced _ inReady rfl
  exact ((h.mem_ready y).1 inReady).2.1 inPlaced

/-- No more nodes are placed and queued than there are. -/
theorem Tallies.length_queued_le (h : d.Tallies p due) :
    p.placed.length + p.ready.length ≤ d.nodes.length := by
  have subset : p.placed ++ p.ready ⊆ d.nodes := by
    refine List.append_subset.2 ⟨h.placed.subset, fun y inReady => ?_⟩
    exact ((h.mem_ready y).1 inReady).1
  simpa using (h.nodup_queued.subperm subset).length_le

end Dependencies

namespace FlowGraph
open Dependencies

variable {g : FlowGraph} {p : Progress} {due : List NodeId}

/-- The counters and the queue are exact, while the nodes of `due` are still to be counted down. -/
structure KeepsCount (g : FlowGraph) (p : Progress) (due : List NodeId) : Prop where
  /-- The counter of an operation is the number of operations that it depends on and that are not
  placed.  One that is still to be counted down counts the one that was placed last, too. -/
  counter : ∀ n ∈ g.operations, p.waiting.get? n.id =
    some ({x | g.Dependency x n.id ∧ x ∉ p.placed}.ncard + if n.id ∈ due then 1 else 0)
  nodup_ready : p.ready.Nodup
  mem_ready : ∀ y, y ∈ p.ready ↔
    (∃ n ∈ g.operations, n.id = y) ∧ y ∉ p.placed ∧ p.waiting.get? y = some 0
  /-- What is to be counted down is counted down from one at least. -/
  positive : ∀ y ∈ due, ∃ n, p.waiting.get? y = some (n + 1)
  /-- It has not been queued yet: what has is placed or still in the queue. -/
  fresh : ∀ y ∈ due, y ∉ p.placed ∧ y ∉ p.ready
  nodup_queued : (p.placed ++ p.ready).Nodup

theorem keepsCount_of_tallies (h : g.dependencies.Tallies p due) : g.KeepsCount p due where
  counter n mem := by
    rw [h.waiting n.id (mem_nodes_iff.2 ⟨n, mem, rfl⟩),
      pending_eq_ncard g.wellFormed_dependencies.nodup_edges]
    simp only [mem_edges_iff]
  nodup_ready := h.nodup_ready
  mem_ready y := by rw [h.mem_ready y, mem_nodes_iff]
  positive y isDue := ⟨_, h.waiting_of_mem_due isDue⟩
  fresh y isDue := ⟨(h.left_of_due y isDue).2, h.not_mem_ready_of_mem_due isDue⟩
  nodup_queued := h.nodup_queued

/-- **The counters are exact at every point of the loop**, whatever the edges of the graph are.  The
points between two placings are those of `run`.  At each the counters and the queue keep count, and
no more nodes are placed or queued than there are operations.  So a run of as many steps as there
are operations comes to its end. -/
theorem counters_exact (g : FlowGraph) :
    (∀ i p, g.dependencies.Visits i p [] ↔
      g.dependencies.run i g.dependencies.initial = .ok p ∧ p.placed.length = i) ∧
    (∀ i p due, g.dependencies.Visits i p due →
      g.KeepsCount p due ∧ i + p.ready.length ≤ g.operations.length) ∧
    ∀ steps, g.operations.length ≤ steps → ∃ i p, g.dependencies.Visits i p [] ∧
      g.dependencies.Ends p (g.dependencies.run steps g.dependencies.initial) := by
  have wf := g.wellFormed_dependencies
  have length : g.dependencies.nodes.length = g.operations.length := List.length_map _
  refine ⟨fun i p => visits_iff_run, fun i p due visited => ?_, fun steps enough => ?_⟩
  · have tallies := tallies_of_visits wf visited
    have bound := tallies.length_queued_le
    rw [visited.length_placed, length] at bound
    exact ⟨keepsCount_of_tallies tallies, bound⟩
  · exact exists_ends wf (length ▸ enough)

/-- `make` feeds `use` twice, and its exit leads there twice; it feeds `log`, as `use` does; and
`circle` waits for itself. -/
def heldUp : FlowGraph where
  nodes :=
    [.operation (OperationNode.new "circle" .emitLog),
      .operation
        ((((OperationNode.new "use" .emitLog).withInput (.parameter "left" .string)).withInput
          (.parameter "right" .string)).withOutput ⟨"out", .string, none⟩),
      .operation
        (((OperationNode.new "log" .emitLog).withInput (.parameter "first" .string)).withInput
          (.parameter "second" .string)),
      .operation ((OperationNode.start "make").withOutput ⟨"out", .string, none⟩)]
  edges :=
    [.control "make" "use", .control "make" "use", .control "circle" "circle",
      .between "make" "out" "use" "left", .between "make" "out" "use" "right",
      .between "make" "out" "log" "first", .between "use" "out" "log" "second"]
  nodup_ids := by decide

/-- `make` is placed and has released `log`, but not yet `use`. -/
def heldUpHalfway : Progress :=
  (heldUp.dependencies.initial.take "make" []).release "log"

/-- Both `log` and `use` then wait for one node: `log` for `use`, and `use` for `make`, which is
placed. -/
theorem heldUp_counters_exact :
    heldUpHalfway.waiting.entries = [("circle", 1), ("use", 1), ("log", 1), ("make", 0)] ∧
      heldUp.dependencies.Visits 1 heldUpHalfway ["use"] ∧
      heldUp.KeepsCount heldUpHalfway ["use"] ∧
      1 + heldUpHalfway.ready.length ≤ heldUp.operations.length ∧
      heldUp.operations.length ≤ 4 ∧
      ∃ i p, heldUp.dependencies.Visits i p [] ∧
        heldUp.dependencies.Ends p (heldUp.dependencies.run 4 heldUp.dependencies.initial) := by
  have taken : heldUp.dependencies.Visits 1 (heldUp.dependencies.initial.take "make" [])
      ["log", "use"] := .take .initial rfl rfl
  have halfway : heldUp.dependencies.Visits 1 heldUpHalfway ["use"] := taken.release
  have four : heldUp.operations.length ≤ 4 := by decide
  obtain ⟨-, points, ends⟩ := counters_exact heldUp
  obtain ⟨count, bound⟩ := points 1 heldUpHalfway ["use"] halfway
  exact ⟨by decide, halfway, count, bound, four, ends 4 four⟩

end FlowGraph

end FlowPlan
