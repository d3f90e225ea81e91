/-!
# Ordered maps

Finite maps that remember the order in which their keys first came.  Inserting under a key that is
there replaces the value and keeps the place; a new key goes to the end.

* `get?_insert`, `get?_modify`: inserting and changing affect the value under their own key and no
  other.
* `ofList_entries`: building a map from its own entries gives it back.
-/

namespace FlowPlan

/-- A finite map whose keys stand in the order of their first insertion. -/
structure OrderedMap (κ α : Type) where
  entries : List (κ × α)
  nodup_keys : (entries.map Prod.fst).Nodup

namespace OrderedMap

variable {κ α : Type}

@[ext]
theorem ext {m n : OrderedMap κ α} (h : m.entries = n.entries) : m = n := by
  cases m; cases n; cases h; rfl

instance [DecidableEq κ] [DecidableEq α] : DecidableEq (OrderedMap κ α) := fun m n =>
  decidable_of_iff (m.entries = n.entries) ⟨ext, congrArg entries⟩

/-- The map without entries. -/
def empty : OrderedMap κ α :=
  ⟨[], List.nodup_nil⟩

instance : Inhabited (OrderedMap κ α) := ⟨empty⟩

/-- The keys, in order. -/
def keys (m : OrderedMap κ α) : List κ :=
  m.entries.map Prod.fst

variable [DecidableEq κ]

/-- The value under a key. -/
def get? (m : OrderedMap κ α) (key : κ) : Option α :=
  (m.entries.find? (·.1 = key)).map Prod.snd

/-- Changes the value under a key, if there is one. -/
def modify (m : OrderedMap κ α) (key : κ) (f : α → α) : OrderedMap κ α where
  entries := m.entries.map fun e => if e.1 = key then (e.1, f e.2) else e
  nodup_keys := by
    rw [List.map_map]
    have h : (Prod.fst ∘ fun e : κ × α => if e.1 = key then (e.1, f e.2) else e) = Prod.fst := by
      funext e
      simp only [Function.comp_apply]
      split <;> rfl
    rw [h]
    exact m.nodup_keys

/-- Puts a value under a key: in place of the one that is there, else at the end. -/
def insert (m : OrderedMap κ α) (key : κ) (x : α) : OrderedMap κ α :=
  if h : key ∈ m.keys then m.modify key fun _ => x
  else
    { entries := m.entries ++ [(key, x)]
      nodup_keys := by
        rw [List.map_append]
        refine List.nodup_append.2 ⟨m.nodup_keys, by simp, ?_⟩
        rintro k hk _ hx rfl
        simp only [List.map_cons, List.map_nil, List.mem_singleton] at hx
        exact h (hx ▸ hk) }

/-- The map that arises by inserting the entries of a list in turn. -/
def ofList (entries : List (κ × α)) : OrderedMap κ α :=
  entries.foldl (fun m e => m.insert e.1 e.2) empty

/-! ### What the operations do -/

@[simp]
theorem keys_modify (m : OrderedMap κ α) (key : κ) (f : α → α) : (m.modify key f).keys = m.keys := by
  simp only [keys, modify, List.map_map]
  congr 1
  funext e
  simp only [Function.comp_apply]
  split <;> rfl

/-- An insertion under a key that is there changes the entry in its place. -/
theorem entries_insert_of_mem {m : OrderedMap κ α} {key : κ} (h : key ∈ m.keys) (x : α) :
    (m.insert key x).entries = m.entries.map fun e => if e.1 = key then (e.1, x) else e := by
  simp only [insert, dif_pos h, modify]

/-- An insertion under a new key adds an entry at the end. -/
theorem entries_insert_of_not_mem {m : OrderedMap κ α} {key : κ} (h : key ∉ m.keys) (x : α) :
    (m.insert key x).entries = m.entries ++ [(key, x)] := by
  simp only [insert, dif_neg h]

/-- Entries under new keys are added one behind the other. -/
theorem foldl_insert_entries {entries : List (κ × α)} {m : OrderedMap κ α}
    (h : (m.keys ++ entries.map Prod.fst).Nodup) :
    (entries.foldl (fun m e => m.insert e.1 e.2) m).entries = m.entries ++ entries := by
  induction entries generalizing m with
  | nil => simp
  | cons e rest ih =>
    have fresh : e.1 ∉ m.keys := fun mem =>
      (List.nodup_append.1 h).2.2 _ mem _ (by simp) rfl
    have step := entries_insert_of_not_mem fresh e.2
    rw [List.foldl_cons, ih, step]
    · simp
    · rw [keys, step]
      simpa [keys] using h

/-- A map is made of a list whose keys differ. -/
theorem entries_ofList {entries : List (κ × α)} (nodup : (entries.map Prod.fst).Nodup) :
    (ofList entries).entries = entries :=
  foldl_insert_entries (show ((empty : OrderedMap κ α).keys ++ entries.map Prod.fst).Nodup from nodup)

/-- Building a map from its own entries gives it back. -/
theorem ofList_entries (m : OrderedMap κ α) : ofList m.entries = m :=
  ext (entries_ofList m.nodup_keys)

theorem get?_insert_self (m : OrderedMap κ α) (key : κ) (x : α) :
    (m.insert key x).get? key = some x := by
  by_cases h : key ∈ m.keys
  · rw [get?, entries_insert_of_mem h]
    obtain ⟨e, he, hk⟩ := List.mem_map.1 h
    have found : (m.entries.map fun e => if e.1 = key then (e.1, x) else e).find? (·.1 = key) =
        some (key, x) := by
      generalize m.entries = entries at he
      induction entries with
      | nil => simp at he
      | cons d rest ih =>
        by_cases hd : d.1 = key
        · simp [hd]
        · rw [List.map_cons, if_neg hd, List.find?_cons_of_neg (by simpa using hd)]
          refine ih ((List.mem_cons.1 he).resolve_left ?_)
          rintro rfl
          exact hd hk
    rw [found]; rfl
  · rw [get?, entries_insert_of_not_mem h, List.find?_append]
    have none : m.entries.find? (·.1 = key) = none := by
      rw [List.find?_eq_none]
      intro e he hk
      exact h (List.mem_map.2 ⟨e, he, by simpa using hk⟩)
    simp [none]

/-- Other keys are not affected by an insertion. -/
theorem get?_insert_of_ne (m : OrderedMap κ α) {key other : κ} (ne : other ≠ key) (x : α) :
    (m.insert key x).get? other = m.get? other := by
  by_cases h : key ∈ m.keys
  · rw [get?, get?, entries_insert_of_mem h]
    congr 1
    clear h
    induction m.entries with
    | nil => rfl
    | cons d rest ih =>
      by_cases hd : d.1 = key
      · have hn : ¬d.1 = other := fun e => ne (e.symm.trans hd)
        rw [List.map_cons, if_pos hd, List.find?_cons_of_neg (by simpa using hn),
          List.find?_cons_of_neg (by simpa using hn), ih]
      · rw [List.map_cons, if_neg hd]
        by_cases ho : d.1 = other
        · rw [List.find?_cons_of_pos (by simpa using ho), List.find?_cons_of_pos (by simpa using ho)]
        · rw [List.find?_cons_of_neg (by simpa using ho), List.find?_cons_of_neg (by simpa using ho),
            ih]
  · rw [get?, get?, entries_insert_of_not_mem h, List.find?_append]
    have hn : ¬key = other := fun e => ne e.symm
    simp [hn]

/-- Inserting changes the value under its own key and no other. -/
theorem get?_insert (m : OrderedMap κ α) (key other : κ) (x : α) :
    (m.insert key x).get? other = if other = key then some x else m.get? other := by
  split
  · next h => subst h; exact m.get?_insert_self other x
  · next h => exact m.get?_insert_of_ne h x

/-- A key is there exactly if something is found under it. -/
theorem mem_keys_iff {m : OrderedMap κ α} {key : κ} : key ∈ m.keys ↔ (m.get? key).isSome := by
  simp [keys, get?]

/-- Changing the value under a key changes it there and nowhere else. -/
theorem get?_modify (m : OrderedMap κ α) (key other : κ) (f : α → α) :
    (m.modify key f).get? other = if other = key then (m.get? key).map f else m.get? other := by
  simp only [get?, modify]
  induction m.entries with
  | nil => simp
  | cons d rest ih =>
    by_cases hd : d.1 = other
    · by_cases hk : d.1 = key <;> grind
    · by_cases hk : d.1 = key <;> grind

/-- A map that is built from distinct keys, with the value that a function gives each. -/
theorem get?_ofList_map {keys : List κ} (nodup : keys.Nodup) (f : κ → α) (key : κ) :
    (ofList (keys.map fun k => (k, f k))).get? key = if key ∈ keys then some (f key) else none := by
  rw [get?, entries_ofList (by simpa [Function.comp_def] using nodup)]
  clear nodup
  induction keys with
  | nil => rfl
  | cons k rest ih =>
    by_cases h : k = key
    · simp [h]
    · have h' : key ≠ k := fun e => h e.symm
      rw [List.map_cons, List.find?_cons_of_neg (by simpa using h), ih]
      simp [h']

end OrderedMap

end FlowPlan
