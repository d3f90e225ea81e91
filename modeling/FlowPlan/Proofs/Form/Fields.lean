import FlowPlan.Flow.Form

/-!
# Forms — fields read back

What the readers of fields give on the members that a structure writes.  A name that stands once
among the members is found (`Fields.lookup?_cons_self`); one that a structure leaves out is absent,
and so is one that stands there with `null`, where that is allowed.  Lists and maps are read back
where each of their items is.

The converse is what reading says of the document: a field, an item of a list or an entry of a map
that was read comes from a document that its reader accepts.
-/

namespace FlowPlan

/-! ### Every item of a list -/

section Items

variable {α β : Type} {f : α → Option β}

/-- What is written of each item is read back of the whole list. -/
theorem mapM_map_eq_some {g : β → α} {ys : List β} (back : ∀ y ∈ ys, f (g y) = some y) :
    (ys.map g).mapM f = some ys := by
  induction ys with
  | nil => rfl
  | cons y ys ih =>
    obtain ⟨first, others⟩ := List.forall_mem_cons.1 back
    simp only [List.map_cons, List.mapM_cons, first, ih others, Option.bind_eq_bind,
      Option.bind_some, Option.pure_def]

/-- Each item of a list that was read was read by itself. -/
theorem exists_of_mapM_eq_some {xs : List α} {ys : List β} {y : β} (h : xs.mapM f = some ys)
    (mem : y ∈ ys) : ∃ x ∈ xs, f x = some y := by
  induction xs generalizing ys with
  | nil =>
    cases h
    cases mem
  | cons x xs ih =>
    simp only [List.mapM_cons, Option.bind_eq_bind, Option.pure_def, Option.bind_eq_some_iff,
      Option.some.injEq] at h
    obtain ⟨first, read, others, rest, rfl⟩ := h
    rcases List.mem_cons.1 mem with rfl | mem
    · exact ⟨x, List.mem_cons_self, read⟩
    · obtain ⟨z, memz, found⟩ := ih rest mem
      exact ⟨z, List.mem_cons_of_mem x memz, found⟩

end Items

/-! ### Fields -/

namespace Fields

variable {α : Type} {fields rest : Fields} {key name : String} {j : Json}

@[simp]
theorem lookup?_nil : lookup? [] name = some none := by
  simp [lookup?]

/-- A field is absent exactly if no field has its name. -/
theorem lookup?_eq_absent_iff :
    lookup? fields name = some none ↔ fields.filter (·.1 = name) = [] := by
  rw [lookup?]
  generalize fields.filter (·.1 = name) = found
  match found with
  | [] | [_] | _ :: _ :: _ => simp

@[simp]
theorem lookup?_cons_of_ne (ne : key ≠ name) :
    lookup? ((key, j) :: rest) name = lookup? rest name := by
  simp only [lookup?, List.filter_cons, decide_eq_false ne, Bool.false_eq_true, if_false]

@[simp]
theorem lookup?_cons_self (absent : lookup? rest name = some none) :
    lookup? ((name, j) :: rest) name = some (some j) := by
  simp only [lookup?, List.filter_cons, decide_true, if_true, lookup?_eq_absent_iff.1 absent]

/-! A member that may be left out. -/

section Member

variable {write : α → Json} {o : Option α}

@[simp]
theorem lookup?_member?_append_of_ne (ne : key ≠ name) :
    lookup? (Json.member? key write o ++ rest) name = lookup? rest name := by
  cases o <;> simp [Json.member?, ne]

/-- A member that may be left out is found if it is there. -/
@[simp]
theorem lookup?_member?_append_self (absent : lookup? rest name = some none) :
    lookup? (Json.member? name write o ++ rest) name = some (o.map write) := by
  cases o <;> simp [Json.member?, absent]

@[simp]
theorem lookup?_member?_of_ne (ne : key ≠ name) :
    lookup? (Json.member? key write o) name = some none := by
  cases o <;> simp [Json.member?, ne]

@[simp]
theorem lookup?_member?_self : lookup? (Json.member? name write o) name = some (o.map write) := by
  cases o <;> simp [Json.member?]

end Member

/-- What a field that may be `null` holds: nothing, or what is read. -/
def present? (read : Json → Option α) : Option Json → Option (Option α)
  | none | some .null => some none
  | some j => (read j).map some

theorem optional?_eq (read : Json → Option α) :
    optional? fields name read = (lookup? fields name).bind (present? read) :=
  rfl

@[simp]
theorem present?_none (read : Json → Option α) : present? read none = some none := by
  rw [present?]

/-- What is written only if it is there is read back, if nothing is written as null. -/
@[simp]
theorem present?_map {read : Json → Option α} {write : α → Json} {o : Option α}
    (back : ∀ a ∈ o, read (write a) = some a) (ne : ∀ a ∈ o, write a ≠ .null) :
    present? read (o.map write) = some o := by
  cases o with
  | none => rfl
  | some a => simp [present?, back a rfl, ne a rfl]

/-- What is written as null if it is not there is read back, if nothing else is. -/
@[simp]
theorem present?_ofOption {read : Json → Option α} {write : α → Json} {o : Option α}
    (back : ∀ a ∈ o, read (write a) = some a) (ne : ∀ a ∈ o, write a ≠ .null) :
    present? read (some (Json.ofOption write o)) = some o := by
  cases o with
  | none => rfl
  | some a => exact present?_map back ne

/-! What was read, was read from something. -/

/-- What is read from a required field is read from some document. -/
theorem exists_of_required? {read : Json → Option α} {a : α}
    (h : required? fields name read = some a) :
    ∃ j, read j = some a := by
  simp only [required?, Option.bind_eq_bind, Option.bind_eq_some_iff] at h
  obtain ⟨_ | j, -, read⟩ := h
  · cases read
  · exact ⟨j, read⟩

/-- What is read from a field with a default is the default, or is read from some document. -/
theorem eq_or_exists_of_defaulted? {read : Json → Option α} {absent a : α}
    (h : defaulted? fields name read absent = some a) : a = absent ∨ ∃ j, read j = some a := by
  simp only [defaulted?, Option.bind_eq_bind, Option.bind_eq_some_iff] at h
  obtain ⟨_ | j, -, read⟩ := h
  · exact .inl (Option.some.inj read).symm
  · exact .inr ⟨j, read⟩

end Fields

/-! ### Texts and lists -/

namespace Json

variable {α : Type} {read : Json → Option α}

@[simp]
theorem members?_obj (members : List (String × Json)) : (obj members).members? = some members := by
  rw [members?]

@[simp]
theorem string?_str (s : String) : string? (.str s) = some s := by
  rw [string?]

@[simp]
theorem bool?_bool (b : Bool) : bool? (.bool b) = some b := by
  rw [bool?]

@[simp]
theorem list?_map {write : α → Json} {xs : List α} (back : ∀ x ∈ xs, read (write x) = some x) :
    list? read (.arr (xs.map write)) = some xs :=
  mapM_map_eq_some back

@[simp]
theorem list?_strings (ss : List String) : list? string? (strings ss) = some ss :=
  list?_map fun s _ => string?_str s

/-- What is read from an array is read from its items. -/
theorem exists_of_list? {j : Json} {xs : List α} {x : α} (h : list? read j = some xs)
    (mem : x ∈ xs) : ∃ y, read y = some x := by
  cases j with
  | arr items =>
    obtain ⟨y, -, found⟩ := exists_of_mapM_eq_some h mem
    exact ⟨y, found⟩
  | null | bool _ | int _ | double _ | str _ | obj _ => cases h

end Json

namespace Fields

@[simp]
theorem present?_string (o : Option String) : present? Json.string? (o.map .str) = some o :=
  present?_map (fun s _ => Json.string?_str s) (by simp)

@[simp]
theorem present?_ofOption_string (o : Option String) :
    present? Json.string? (some (Json.ofOption .str o)) = some o :=
  present?_ofOption (fun s _ => Json.string?_str s) (by simp)

@[simp]
theorem present?_strings (o : Option (List String)) :
    present? (Json.list? Json.string?) (o.map Json.strings) = some o :=
  present?_map (fun ss _ => Json.list?_strings ss) (by simp [Json.strings])

end Fields

/-! ### Data -/

/-- The value `null` is written in one way only. -/
theorem Value.ofJson_eq_null_iff {j : Json} : Value.ofJson j = .null ↔ j = .null := by
  cases j <;> simp [Value.ext_iff, Value.ofJson, Value.null, Json.canonical]

/-- Data is read back. -/
@[simp]
theorem Json.value?_json (v : Value) : value? v.json = some v := by
  rw [value?, v.ofJson_json]

namespace Fields

variable {fields : Fields} {name : String} {o : Option Value}

/-- A value other than the null value has a document other than null. -/
theorem ne_null_of_ne (h : o ≠ some .null) : ∀ v ∈ o, v.json ≠ .null := by
  rintro v rfl null
  exact h (congrArg some (Value.ext null))

@[simp]
theorem present?_value (h : o ≠ some .null) :
    present? Json.value? (o.map Value.json) = some o :=
  present?_map (fun v _ => Json.value?_json v) (ne_null_of_ne h)

/-- A value that may be null is read back, unless it is there and null. -/
@[simp]
theorem present?_ofOption_value (h : o ≠ some .null) :
    present? Json.value? (some (Json.ofOption Value.json o)) = some o :=
  present?_ofOption (fun v _ => Json.value?_json v) (ne_null_of_ne h)

/-- A field that may be `null` never holds the value `null`. -/
theorem ne_null_of_optional? (h : optional? fields name Json.value? = some o) :
    o ≠ some .null := by
  rintro rfl
  rw [optional?_eq, Option.bind_eq_some_iff] at h
  obtain ⟨found, -, read⟩ := h
  rw [present?.eq_def] at read
  split at read
  · cases read
  · cases read
  · next j ne =>
    obtain ⟨v, value, same⟩ := Option.map_eq_some_iff.1 read
    cases same
    exact ne (Value.ofJson_eq_null_iff.1 (Option.some.inj value))

end Fields

/-! ### Maps -/

namespace OrderedMap

variable {α : Type} {read : Json → Option α} {write : α → Json} {m : OrderedMap String α}

/-- A map is read back, its entries in their order. -/
theorem ofJson?_toJson (back : ∀ e ∈ m.entries, read (write e.2) = some e.2) :
    ofJson? read (m.toJson write) = some m := by
  have entries : (m.entries.map fun e => (e.1, write e.2)).mapM
      (fun e => (read e.2).map fun x => (e.1, x)) = some m.entries :=
    mapM_map_eq_some fun e mem => by rw [back e mem, Option.map_some]
  simp [ofJson?, toJson, entries, ofList_entries]

/-- An entry of a map after an insertion is the inserted value or was there before. -/
theorem mem_of_mem_insert {κ : Type} [DecidableEq κ] {m : OrderedMap κ α} {key : κ} {x : α}
    {e : κ × α} (mem : e ∈ (m.insert key x).entries) : e.2 = x ∨ e ∈ m.entries := by
  by_cases h : key ∈ m.keys
  · rw [entries_insert_of_mem h, List.mem_map] at mem
    obtain ⟨d, memd, rfl⟩ := mem
    by_cases same : d.1 = key
    · exact .inl (by rw [if_pos same])
    · exact .inr (by rwa [if_neg same])
  · rw [entries_insert_of_not_mem h, List.mem_append, List.mem_singleton] at mem
    rcases mem with mem | rfl
    · exact .inr mem
    · exact .inl rfl

/-- A map holds no values but those that it is built from. -/
theorem exists_of_mem_ofList {κ : Type} [DecidableEq κ] {entries : List (κ × α)} {e : κ × α}
    (mem : e ∈ (ofList entries).entries) : ∃ d ∈ entries, d.2 = e.2 := by
  suffices step : ∀ m : OrderedMap κ α,
      e ∈ (entries.foldl (fun m d => m.insert d.1 d.2) m).entries →
        e ∈ m.entries ∨ ∃ d ∈ entries, d.2 = e.2 from
    (step empty mem).resolve_left List.not_mem_nil
  clear mem
  induction entries with
  | nil => exact fun _ mem => .inl mem
  | cons d entries ih =>
    intro m mem
    rcases ih _ mem with mem | ⟨c, memc, same⟩
    · rcases mem_of_mem_insert mem with same | mem
      · exact .inr ⟨d, List.mem_cons_self, same.symm⟩
      · exact .inl mem
    · exact .inr ⟨c, List.mem_cons_of_mem d memc, same⟩

/-- Each value of a map that was read was read by itself. -/
theorem exists_of_ofJson? {j : Json} {e : String × α} (h : ofJson? read j = some m)
    (mem : e ∈ m.entries) : ∃ y, read y = some e.2 := by
  simp only [ofJson?, Option.bind_eq_bind, Option.bind_eq_some_iff, Option.some.injEq] at h
  obtain ⟨members, -, entries, each, rfl⟩ := h
  obtain ⟨d, memd, same⟩ := exists_of_mem_ofList mem
  obtain ⟨member, -, read⟩ := exists_of_mapM_eq_some each memd
  obtain ⟨x, found, rfl⟩ := Option.map_eq_some_iff.1 read
  exact ⟨member.2, same ▸ found⟩

end OrderedMap

end FlowPlan
