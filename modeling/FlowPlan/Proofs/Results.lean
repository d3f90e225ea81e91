import Mathlib.Data.List.Forall2

/-!
# Proofs — results

When a computation that may fail succeeds, so do the computations that it is made of; when it fails,
one of them does.

* `mapM_eq_ok_iff`, `mapM_eq_error_iff`: a computation on every element of a list succeeds exactly if
  it does so on each, and else fails as it does on the first element on which it fails.
* `forM_eq_ok_iff`, `forM_eq_error_iff`: so does a check of every element.
-/

namespace FlowPlan

variable {ε α β : Type}

theorem exists_eq_ok_iff {x : Except ε α} : (∃ a, x = .ok a) ↔ ∀ failure, x ≠ .error failure := by
  cases x <;> simp

theorem exists_eq_error_iff {x : Except ε α} : (∃ failure, x = .error failure) ↔ ∀ a, x ≠ .ok a := by
  cases x <;> simp

/-- Two steps succeed exactly if the first does and the second does with its result. -/
theorem bind_eq_ok_iff {x : Except ε α} {f : α → Except ε β} {b : β} :
    (x >>= f) = .ok b ↔ ∃ a, x = .ok a ∧ f a = .ok b := by
  cases x <;> simp [bind, Except.bind]

/-- Two steps fail as the first does, or as the second does with its result. -/
theorem bind_eq_error_iff {x : Except ε α} {f : α → Except ε β} {failure : ε} :
    (x >>= f) = .error failure ↔ x = .error failure ∨ ∃ a, x = .ok a ∧ f a = .error failure := by
  cases x <;> simp [bind, Except.bind]

theorem map_eq_ok_iff {x : Except ε α} {f : α → β} {b : β} :
    x.map f = .ok b ↔ ∃ a, x = .ok a ∧ f a = b := by
  cases x <;> simp [Except.map]

theorem map_eq_error_iff {x : Except ε α} {f : α → β} {failure : ε} :
    x.map f = .error failure ↔ x = .error failure := by
  cases x <;> simp [Except.map]

/-! ### Every element of a list -/

variable {f : α → Except ε β} {xs : List α} {ys : List β}

/-- A list is run through if its first element is and the others are. -/
theorem mapM_cons_eq_ok_iff {x : α} :
    (x :: xs).mapM f = .ok ys ↔ ∃ y rest, f x = .ok y ∧ xs.mapM f = .ok rest ∧ y :: rest = ys := by
  rw [List.mapM_cons, bind_eq_ok_iff]
  simp only [bind_eq_ok_iff, pure, Except.pure, Except.ok.injEq, exists_and_left]

theorem mapM_cons_eq_error_iff {x : α} {failure : ε} :
    (x :: xs).mapM f = .error failure ↔
      f x = .error failure ∨ (∃ y, f x = .ok y) ∧ xs.mapM f = .error failure := by
  rw [List.mapM_cons, bind_eq_error_iff]
  simp only [bind_eq_error_iff, pure, Except.pure, reduceCtorEq, and_false, exists_false, or_false,
    exists_and_right]

/-- Each result is that of the element in its place. -/
theorem forall₂_of_mapM (h : xs.mapM f = .ok ys) :
    List.Forall₂ (fun x y => f x = .ok y) xs ys := by
  induction xs generalizing ys with
  | nil =>
    cases h
    exact .nil
  | cons x xs ih =>
    obtain ⟨y, rest, head, tail, rfl⟩ := mapM_cons_eq_ok_iff.1 h
    exact .cons head (ih tail)

/-- A computation succeeds on a list exactly if it does so on every element. -/
theorem mapM_eq_ok_iff : xs.mapM f = .ok ys ↔ List.Forall₂ (fun x y => f x = .ok y) xs ys := by
  refine ⟨forall₂_of_mapM, fun related => ?_⟩
  induction related with
  | nil => rfl
  | cons head _ ih => exact mapM_cons_eq_ok_iff.2 ⟨_, _, head, ih, rfl⟩

/-- A list is run through exactly if each of its elements is. -/
theorem exists_mapM_eq_ok_iff : (∃ ys, xs.mapM f = .ok ys) ↔ ∀ x ∈ xs, ∃ y, f x = .ok y := by
  induction xs with
  | nil => simp [pure, Except.pure]
  | cons x xs ih =>
    rw [List.forall_mem_cons, ← ih]
    simp only [mapM_cons_eq_ok_iff]
    constructor
    · rintro ⟨_, y, rest, head, tail, -⟩
      exact ⟨⟨y, head⟩, rest, tail⟩
    · rintro ⟨⟨y, head⟩, rest, tail⟩
      exact ⟨y :: rest, y, rest, head, tail, rfl⟩

/-- A computation fails on a list as it does on the first element on which it fails. -/
theorem mapM_eq_error_iff {failure : ε} :
    xs.mapM f = .error failure ↔
      ∃ done x rest, xs = done ++ x :: rest ∧ (∀ y ∈ done, ∃ b, f y = .ok b) ∧
        f x = .error failure := by
  induction xs with
  | nil => simp [pure, Except.pure]
  | cons y xs ih =>
    rw [mapM_cons_eq_error_iff, ih]
    constructor
    · rintro (head | ⟨ok, done, x, rest, rfl, oks, failed⟩)
      · exact ⟨[], y, xs, rfl, by simp, head⟩
      · exact ⟨y :: done, x, rest, rfl, List.forall_mem_cons.2 ⟨ok, oks⟩, failed⟩
    · rintro ⟨_ | ⟨z, done⟩, x, rest, split, oks, failed⟩
      · cases split
        exact .inl failed
      · cases split
        obtain ⟨ok, oks⟩ := List.forall_mem_cons.1 oks
        exact .inr ⟨ok, done, x, rest, rfl, oks, failed⟩

/-- The results of two lists are the results of each, one behind the other. -/
theorem mapM_append_eq_ok_iff {zs : List α} :
    (xs ++ zs).mapM f = .ok ys ↔
      ∃ front back, xs.mapM f = .ok front ∧ zs.mapM f = .ok back ∧ front ++ back = ys := by
  rw [List.mapM_append, bind_eq_ok_iff]
  simp only [bind_eq_ok_iff, pure, Except.pure, Except.ok.injEq, exists_and_left]

theorem exists_of_forall₂ {R : α → β → Prop} {x : α} (related : List.Forall₂ R xs ys) (mem : x ∈ xs) :
    ∃ y ∈ ys, R x y := by
  induction related with
  | nil => cases mem
  | @cons z y zs ys head _ ih =>
    rcases List.mem_cons.1 mem with rfl | mem
    · exact ⟨y, List.mem_cons_self, head⟩
    · obtain ⟨w, memw, found⟩ := ih mem
      exact ⟨w, List.mem_cons_of_mem y memw, found⟩

/-- Every result is that of some element. -/
theorem exists_of_mem_mapM {y : β} (h : xs.mapM f = .ok ys) (mem : y ∈ ys) :
    ∃ x ∈ xs, f x = .ok y :=
  exists_of_forall₂ (forall₂_of_mapM h).flip mem

/-! ### Checks -/

theorem check_bind_eq_ok_iff {x : Except ε Unit} {f : Unit → Except ε β} {b : β} :
    (x >>= f) = .ok b ↔ x = .ok () ∧ f () = .ok b := by
  cases x <;> simp [bind, Except.bind]

/-- A checked computation fails as the check does, or passes it and fails. -/
theorem check_bind_eq_error_iff {x : Except ε Unit} {f : Unit → Except ε β} {failure : ε} :
    (x >>= f) = .error failure ↔ x = .error failure ∨ x = .ok () ∧ f () = .error failure := by
  cases x <;> simp [bind, Except.bind]

/-- A check of every element is a computation on every element, of which only success matters. -/
theorem forM_eq_map_mapM {check : α → Except ε Unit} :
    xs.forM check = (xs.mapM check).map fun _ => () := by
  induction xs with
  | nil => rfl
  | cons x xs ih =>
    rw [List.forM, ih, List.mapM_cons]
    cases check x <;> cases xs.mapM check <;> rfl

/-- A check passes a list exactly if it passes every element. -/
theorem forM_eq_ok_iff {check : α → Except ε Unit} :
    xs.forM check = .ok () ↔ ∀ x ∈ xs, check x = .ok () := by
  have each (x : α) : (∃ u, check x = .ok u) ↔ check x = .ok () :=
    ⟨fun ⟨(), ok⟩ => ok, fun ok => ⟨(), ok⟩⟩
  simp only [forM_eq_map_mapM, map_eq_ok_iff, and_true, exists_mapM_eq_ok_iff, each]

/-- A check fails on a list as it does on the first element on which it fails. -/
theorem forM_eq_error_iff {check : α → Except ε Unit} {failure : ε} :
    xs.forM check = .error failure ↔
      ∃ done x rest, xs = done ++ x :: rest ∧ (∀ y ∈ done, ∃ b, check y = .ok b) ∧
        check x = .error failure := by
  rw [forM_eq_map_mapM, map_eq_error_iff, mapM_eq_error_iff]

end FlowPlan
