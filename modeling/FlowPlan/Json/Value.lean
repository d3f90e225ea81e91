import FlowPlan.Json.Basic

/-!
# Json — values

The free-form data that nodes store and arguments carry.  A value is a document whose objects all
list their members in strictly ascending order of their keys, compared by code point; so two
values that denote the same data are equal, and every printed form of a value shows that order.

`Json.canonical` turns a document into a value; where a key comes more than once, its last member
counts.

* `Json.sorted_canonical`: the result of `canonical` is sorted.
* `Json.canonical_of_sorted`: a sorted document is its own canonical form.
* `Value.ofJson_json`: reading a value's own document gives the value back.
-/

namespace FlowPlan

namespace Json

/-! ### Members sorted by key -/

section Members

variable {α : Type}

/-- The keys strictly ascend. -/
def Ascending (members : List (String × α)) : Prop :=
  (members.map Prod.fst).Pairwise (· < ·)

/-- Puts a member in its place among sorted ones, instead of one with the same key. -/
def insertMember (key : String) (x : α) : List (String × α) → List (String × α)
  | [] => [(key, x)]
  | (k, y) :: rest =>
    if key < k then (key, x) :: (k, y) :: rest
    else if key = k then (key, x) :: rest
    else (k, y) :: insertMember key x rest

/-- The members in ascending order of their keys; of those with one key, the last. -/
def sortMembers (members : List (String × α)) : List (String × α) :=
  members.foldl (fun sorted m => insertMember m.1 m.2 sorted) []

theorem insertMember_nil (key : String) (x : α) : insertMember key x [] = [(key, x)] :=
  rfl

/-- A member stands in front of those with greater keys. -/
theorem insertMember_cons_of_lt {key k : String} (lt : key < k) (x y : α)
    (rest : List (String × α)) :
    insertMember key x ((k, y) :: rest) = (key, x) :: (k, y) :: rest :=
  if_pos lt

/-- A member stands somewhere behind one with a smaller key. -/
theorem insertMember_cons_of_gt {key k : String} (gt : k < key) (x y : α)
    (rest : List (String × α)) :
    insertMember key x ((k, y) :: rest) = (k, y) :: insertMember key x rest := by
  have ne : key ≠ k := fun same => String.lt_irrefl k (same ▸ gt)
  rw [insertMember, if_neg (String.lt_asymm gt), if_neg ne]

/-- A member after an insertion is the new one or was there before. -/
theorem mem_of_mem_insertMember {key : String} {x : α} {m : String × α} :
    ∀ {members : List (String × α)}, m ∈ insertMember key x members → m = (key, x) ∨ m ∈ members
  | [], h => by simpa [insertMember] using h
  | (k, y) :: rest, h => by
    simp only [insertMember] at h
    split at h
    · simpa using h
    · split at h
      · rcases List.mem_cons.1 h with h | h
        · exact .inl h
        · exact .inr (List.mem_cons_of_mem _ h)
      · rcases List.mem_cons.1 h with h | h
        · exact .inr (by simp [h])
        · exact (mem_of_mem_insertMember h).imp_right (List.mem_cons_of_mem _)

/-- An insertion keeps the keys in order. -/
theorem ascending_insertMember {key : String} {x : α} :
    ∀ {members : List (String × α)}, Ascending members → Ascending (insertMember key x members)
  | [], _ => by simp [insertMember, Ascending]
  | (k, y) :: rest, h => by
    simp only [Ascending, List.map_cons, List.pairwise_cons] at h
    obtain ⟨first, others⟩ := h
    simp only [insertMember]
    split
    · next lt =>
      simp only [Ascending, List.map_cons, List.pairwise_cons, List.mem_cons]
      refine ⟨?_, first, others⟩
      rintro l (rfl | hl)
      · exact lt
      · exact String.lt_trans lt (first l hl)
    · next not_lt =>
      split
      · next eq =>
        subst eq
        exact List.pairwise_cons.2 ⟨first, others⟩
      · next ne =>
        simp only [Ascending, List.map_cons, List.pairwise_cons]
        refine ⟨?_, ascending_insertMember others⟩
        intro l hl
        obtain ⟨m, hm, rfl⟩ := List.mem_map.1 hl
        rcases mem_of_mem_insertMember hm with rfl | hm
        · exact String.not_le.1 fun le => ne (String.le_antisymm le (String.not_lt.1 not_lt))
        · exact first _ (List.mem_map_of_mem hm)

/-- A member whose key is the greatest comes last. -/
theorem insertMember_of_lt {key : String} {x : α} :
    ∀ {members : List (String × α)}, (∀ m ∈ members, m.1 < key) →
      insertMember key x members = members ++ [(key, x)]
  | [], _ => rfl
  | (k, y) :: rest, h => by
    rw [insertMember_cons_of_gt (h (k, y) List.mem_cons_self),
      insertMember_of_lt fun m hm => h m (List.mem_cons_of_mem _ hm), List.cons_append]

/-- Members in order are inserted one behind the other. -/
theorem foldl_insertMember_of_ascending {members sorted : List (String × α)}
    (h : Ascending (sorted ++ members)) :
    members.foldl (fun sorted m => insertMember m.1 m.2 sorted) sorted = sorted ++ members := by
  induction members generalizing sorted with
  | nil => simp
  | cons m members ih =>
    have lt : ∀ n ∈ sorted, n.1 < m.1 := by
      intro n hn
      rw [Ascending, List.map_append, List.pairwise_append] at h
      exact h.2.2 _ (List.mem_map_of_mem hn) _ (by simp)
    rw [List.foldl_cons, insertMember_of_lt lt, ih (by simpa using h)]
    simp

/-- Sorting changes nothing where the keys ascend already. -/
theorem sortMembers_of_ascending {members : List (String × α)} (h : Ascending members) :
    sortMembers members = members := by
  have h : Ascending ([] ++ members) := by simpa using h
  simpa [sortMembers] using foldl_insertMember_of_ascending h

/-- Sorted members are in order. -/
theorem ascending_sortMembers (members : List (String × α)) : Ascending (sortMembers members) := by
  suffices h : ∀ sorted : List (String × α), Ascending sorted →
      Ascending (members.foldl (fun sorted m => insertMember m.1 m.2 sorted) sorted) from
    h [] (by simp [Ascending])
  induction members with
  | nil => exact fun _ h => h
  | cons m members ih => exact fun sorted h => ih _ (ascending_insertMember h)

theorem mem_of_mem_sortMembers {m : String × α} {members : List (String × α)}
    (h : m ∈ sortMembers members) : m ∈ members := by
  suffices step : ∀ sorted : List (String × α),
      m ∈ members.foldl (fun sorted m => insertMember m.1 m.2 sorted) sorted →
        m ∈ sorted ∨ m ∈ members from by simpa using step [] h
  clear h
  induction members with
  | nil => exact fun _ h => .inl h
  | cons n members ih =>
    intro sorted h
    rcases ih _ h with h | h
    · rcases mem_of_mem_insertMember h with rfl | h
      · exact .inr (by simp)
      · exact .inl h
    · exact .inr (List.mem_cons_of_mem _ h)

end Members

/-! ### Canonical documents -/

mutual

/-- The document with the members of every object sorted by key. -/
def canonical : Json → Json
  | .null => .null
  | .bool b => .bool b
  | .int i => .int i
  | .double x => .double x
  | .str s => .str s
  | .arr items => .arr (canonicalItems items)
  | .obj members => .obj (sortMembers (canonicalMembers members))

/-- The documents, each in canonical form. -/
def canonicalItems : List Json → List Json
  | [] => []
  | x :: rest => x.canonical :: canonicalItems rest

/-- The members in their order, the document of each in canonical form. -/
def canonicalMembers : List (String × Json) → List (String × Json)
  | [] => []
  | (k, x) :: rest => (k, x.canonical) :: canonicalMembers rest

end

mutual

/-- Every object lists its members in strictly ascending order of their keys. -/
def Sorted : Json → Prop
  | .null | .bool _ | .int _ | .double _ | .str _ => True
  | .arr items => SortedItems items
  | .obj members => Ascending members ∧ SortedMembers members

/-- All documents of the list are sorted. -/
def SortedItems : List Json → Prop
  | [] => True
  | x :: rest => x.Sorted ∧ SortedItems rest

/-- The documents of all members are sorted. -/
def SortedMembers : List (String × Json) → Prop
  | [] => True
  | (_, x) :: rest => x.Sorted ∧ SortedMembers rest

end

theorem sortedMembers_iff {members : List (String × Json)} :
    SortedMembers members ↔ ∀ m ∈ members, m.2.Sorted := by
  induction members with
  | nil => simp [SortedMembers]
  | cons m rest ih => simp [SortedMembers, ih]

mutual

/-- The result of `canonical` is sorted. -/
theorem sorted_canonical : ∀ j : Json, j.canonical.Sorted
  | .null | .bool _ | .int _ | .double _ | .str _ => by simp [canonical, Sorted]
  | .arr items => by simpa [canonical, Sorted] using sortedItems_canonicalItems items
  | .obj members => by
    have h := sortedMembers_iff.1 (sortedMembers_canonicalMembers members)
    simp only [canonical, Sorted]
    exact ⟨ascending_sortMembers _, sortedMembers_iff.2 fun m hm => h m (mem_of_mem_sortMembers hm)⟩

theorem sortedItems_canonicalItems : ∀ items : List Json, SortedItems (canonicalItems items)
  | [] => trivial
  | x :: rest => ⟨sorted_canonical x, sortedItems_canonicalItems rest⟩

theorem sortedMembers_canonicalMembers :
    ∀ members : List (String × Json), SortedMembers (canonicalMembers members)
  | [] => trivial
  | (_, x) :: rest => ⟨sorted_canonical x, sortedMembers_canonicalMembers rest⟩

end

mutual

/-- A sorted document is its own canonical form. -/
theorem canonical_of_sorted : ∀ {j : Json}, j.Sorted → j.canonical = j
  | .null, _ | .bool _, _ | .int _, _ | .double _, _ | .str _, _ => by simp [canonical]
  | .arr _, h => by simp only [canonical, canonicalItems_of_sorted h]
  | .obj _, h => by
    simp only [canonical, canonicalMembers_of_sorted h.2, sortMembers_of_ascending h.1]

theorem canonicalItems_of_sorted :
    ∀ {items : List Json}, SortedItems items → canonicalItems items = items
  | [], _ => rfl
  | _ :: _, h => by
    simp only [canonicalItems, canonical_of_sorted h.1, canonicalItems_of_sorted h.2]

theorem canonicalMembers_of_sorted :
    ∀ {members : List (String × Json)}, SortedMembers members → canonicalMembers members = members
  | [], _ => rfl
  | _ :: _, h => by
    simp only [canonicalMembers, canonical_of_sorted h.1, canonicalMembers_of_sorted h.2]

end

end Json

/-! ### Values -/

/-- Free-form data: a document whose objects are sorted by key. -/
structure Value where
  json : Json
  sorted : json.Sorted
  deriving DecidableEq

namespace Value

@[ext]
theorem ext {v w : Value} (h : v.json = w.json) : v = w := by
  cases v; cases w; cases h; rfl

/-- The value that a document denotes. -/
def ofJson (j : Json) : Value :=
  ⟨j.canonical, j.sorted_canonical⟩

theorem ofJson_json (v : Value) : ofJson v.json = v :=
  ext (Json.canonical_of_sorted v.sorted)

/-- The value `null`. -/
def null : Value :=
  ⟨.null, trivial⟩

instance : Inhabited Value := ⟨null⟩

/-- A truth value. -/
def bool (b : Bool) : Value :=
  ⟨.bool b, trivial⟩

/-- A text. -/
def text (s : String) : Value :=
  ⟨.str s, trivial⟩

/-- An object with one member, which is a text. -/
def tagged (key : String) (s : String) : Value :=
  ⟨.obj [(key, .str s)], by simp [Json.Sorted, Json.SortedMembers, Json.Ascending]⟩

end Value

end FlowPlan
