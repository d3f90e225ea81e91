import Mathlib.Data.List.Nodup
import Mathlib.Data.List.Perm.Subperm
import FlowPlan.Proofs.Editing.Wired
import FlowPlan.Proofs.Text.Numerals

/-!
# Editing — declared parameters

A connection from a bank's `new-input-param` handle declares a parameter on the way.  The parameter
is called after the input that it is declared for.  If the bank uses that name, the numbers from 1
on are tried behind it, and the search ends with one of the first numbers, as many as the bank has
parameters: distinct numbers make distinct names, and no more than the parameters' are used.

* `IsFirstUnused`: the name that such a search ends with; `isFirstUnused_nextAvailable`.
* `DeclaresFor`: what a declaration changes, which is the bank and the end of the edges.
* `namesDistinct_afterEdits`: the names of a bank's parameters stay distinct through every edit.
-/

namespace FlowPlan

/-! ### Unused names -/

/-- The name is `base` if that is unused, and else `base` with the least positive number behind it
that makes it so.  At most as many numbers are tried as there are names. -/
inductive IsFirstUnused (taken : List String) (base : String) : String → Prop where
  | plain (unused : base ∉ taken) : IsFirstUnused taken base base
  | numbered {k : Nat} (used : base ∈ taken) (pos : 1 ≤ k) (ends : k ≤ taken.length)
      (unused : base ++ toString k ∉ taken)
      (least : ∀ j, 1 ≤ j → j < k → base ++ toString j ∈ taken) :
      IsFirstUnused taken base (base ++ toString k)

section Names

variable {base : String} {taken : List String}

theorem IsFirstUnused.not_mem {name : String} (first : IsFirstUnused taken base name) :
    name ∉ taken := by
  cases first with
  | plain unused => exact unused
  | numbered _ _ _ unused => exact unused

/-- Different numbers make different names. -/
theorem numbered_injective (base : String) :
    Function.Injective fun k : Nat => base ++ toString k := by
  intro j k same
  have suffix : toString j = toString k := (String.append_right_inj base).1 same
  rw [← Text.ofList_natural, ← Text.ofList_natural] at suffix
  exact Text.natural_inj (String.ofList_injective suffix)

/-- Something stands behind the base of a numbered name. -/
theorem ne_numbered (base : String) (k : Nat) : base ≠ base ++ toString k := by
  intro same
  have empty : toString k = "" := String.append_eq_left_iff.1 same.symm
  rw [← Text.ofList_natural] at empty
  exact (Text.isDigits_natural k).1 (String.ofList_eq_empty_iff.1 empty)

/-- A search of so many numbers ends with the first that makes an unused name, or at its last. -/
theorem exists_numberedName_eq (base : String) (taken : List String) (k steps : Nat) :
    ∃ m, k ≤ m ∧ m ≤ k + steps ∧ numberedName base taken k steps = base ++ toString m ∧
      (∀ j, k ≤ j → j < m → base ++ toString j ∈ taken) ∧
      (base ++ toString m ∈ taken → m = k + steps) := by
  induction steps generalizing k with
  | zero =>
    refine ⟨k, Nat.le_refl k, Nat.le_refl k, ?_, fun j _ _ => by omega, fun _ => rfl⟩
    rw [numberedName, Text.ofList_natural]
  | succ steps ih =>
    rw [numberedName, Text.ofList_natural]
    split
    · next used =>
      obtain ⟨m, le, within, found, before, last⟩ := ih (k + 1)
      refine ⟨m, by omega, by omega, found, fun j lej ltj => ?_, fun mem => ?_⟩
      · rcases Nat.eq_or_lt_of_le lej with rfl | lt
        · exact used
        · exact before j lt ltj
      · have := last mem
        omega
    · next unused =>
      exact ⟨k, Nat.le_refl k, by omega, rfl, fun j _ _ => by omega, fun mem => absurd mem unused⟩

/-- The names that are tried before the one of number `k`. -/
def earlierNames (base : String) (k : Nat) : List String :=
  base :: (List.range' 1 (k - 1)).map fun j => base ++ toString j

/-- No name is tried twice. -/
theorem nodup_earlierNames (base : String) (k : Nat) : (earlierNames base k).Nodup := by
  refine List.nodup_cons.2 ⟨fun mem => ?_, (List.nodup_range' 1).map (numbered_injective base)⟩
  obtain ⟨j, -, same⟩ := List.mem_map.1 mem
  exact ne_numbered base j same.symm

/-- If all names before the one of number `k` are used, there are at least `k` of them. -/
theorem le_length_of_used {k : Nat} (used : base ∈ taken)
    (before : ∀ j, 1 ≤ j → j < k → base ++ toString j ∈ taken) : k ≤ taken.length := by
  have sub : earlierNames base k ⊆ taken := by
    refine List.cons_subset.2 ⟨used, fun name mem => ?_⟩
    obtain ⟨j, range, rfl⟩ := List.mem_map.1 mem
    rw [List.mem_range'_1] at range
    exact before j range.1 (by omega)
  have bound : (earlierNames base k).length ≤ taken.length :=
    (List.subperm_of_subset (nodup_earlierNames base k) sub).length_le
  simp only [earlierNames, List.length_cons, List.length_map, List.length_range'] at bound
  omega

/-- **The search for an unused name ends with the first one.** -/
theorem isFirstUnused_nextAvailable (base : String) (taken : List String) :
    IsFirstUnused taken base (nextAvailable base taken) := by
  rw [nextAvailable]
  split
  · next used =>
    obtain ⟨m, pos, -, found, before, last⟩ := exists_numberedName_eq base taken 1 taken.length
    have ends : m ≤ taken.length := le_length_of_used used before
    rw [found]
    refine .numbered used pos ends (fun mem => ?_) before
    -- the search stops at a used name only beyond all the numbers that names can use
    have := last mem
    omega
  · next unused => exact .plain unused

/-- Names that look numbered are passed over where they are used. -/
example : nextAvailable "text" ["text1", "text3", "text", "text2", "text5"] = "text4" := by decide

end Names

/-- No two parameters of the bank have one name. -/
def InputBank.NamesDistinct (b : InputBank) : Prop :=
  (b.params.map BankParam.name).Nodup

instance (b : InputBank) : Decidable b.NamesDistinct :=
  inferInstanceAs (Decidable (List.Nodup _))

namespace FlowGraph

variable {g h : FlowGraph} {c : Connection} {fresh : ParamId} {b : InputBank}

/-! ### One declaration -/

/-- A node in place of the one that has its identifier, and the others where they were. -/
theorem nodes_replaceNode {old new : Node} (mem : old ∈ g.nodes) (same : new.id = old.id) :
    ∃ before after, g.nodes = before ++ old :: after ∧
      (g.replaceNode new).nodes = before ++ new :: after := by
  obtain ⟨before, after, split⟩ := List.append_of_mem mem
  refine ⟨before, after, split, ?_⟩
  have apart := g.nodup_ids
  rw [split, List.map_append, List.map_cons, List.nodup_append] at apart
  obtain ⟨-, tail, ends⟩ := apart
  have others (n : Node) (out : n.id ≠ old.id) : (if n.id = new.id then new else n) = n :=
    if_neg fun eq => out (eq.trans same)
  have front : before.map (fun n => if n.id = new.id then new else n) = before := by
    refine (List.map_congr_left fun n memFront => others n ?_).trans (List.map_id before)
    exact ends n.id (List.mem_map_of_mem memFront) old.id List.mem_cons_self
  have back : after.map (fun n => if n.id = new.id then new else n) = after := by
    refine (List.map_congr_left fun n memBack => others n fun eq => ?_).trans (List.map_id after)
    exact (List.nodup_cons.1 tail).1 (eq ▸ List.mem_map_of_mem memBack)
  change g.nodes.map _ = _
  rw [split, List.map_append, List.map_cons, front, back, if_pos same.symm]

/-- What a declaration changes: the bank `b` has one more parameter `p`, for the input `i` of the
operation `t`, and feeds the input from it. -/
structure DeclaresFor (g h : FlowGraph) (b : InputBank) (p : BankParam) (t : OperationNode)
    (i : Input) : Prop where
  /-- The nodes are the same in the same places, but for the bank, which has the parameter last. -/
  nodes : ∃ before after, g.nodes = before ++ .inputBank b :: after ∧
    h.nodes = before ++ .inputBank { b with params := b.params ++ [p] } :: after
  edges : h.edges = g.edges ++ [.between b.id p.id t.id i.name]
  /-- The new edge leaves the new parameter. -/
  found : { b with params := b.params ++ [p] }.param? p.id = some p
  type : p.type = i.type
  name : IsFirstUnused (b.params.map BankParam.name)
    (if i.role = .receiver then "componentAddress" else i.name) p.name

/-- What is drawn from the declaring handle is what a declaration has to be. -/
theorem declaresFor_spawn {t : OperationNode} {i : Input} (bank : b ∈ g.inputBanks)
    (unused : b.param? fresh = none) :
    g.DeclaresFor (g.spawn b t i fresh i.name) b (spawnedParam b i fresh) t i where
  nodes := nodes_replaceNode (mem_inputBanks.1 bank) rfl
  edges := rfl
  found := param?_spawned unused
  type := rfl
  name := isFirstUnused_nextAvailable _ _

/-- **An accepted connection from the handle that declares a parameter declares one.** -/
theorem exists_connect_eq_spawn (bank : b ∈ g.inputBanks) (declares : c.Declares b)
    (accepted : g.checkConnection c = .ok ()) :
    ∃ t ∈ g.operations, ∃ i, t.input? i.name = some i ∧
      c = .between b.id Handle.newInputParam t.id i.name ∧
      g.connect fresh c = .ok (g.spawn b t i fresh i.name) := by
  obtain ⟨h, connected⟩ : ∃ h, g.connect fresh c = .ok h := exists_connect_eq_ok_iff.2 accepted
  cases draws_of_connect connected with
  | control source => exact absurd declares.1.symm (inputBank_id_ne bank source)
  | supply _ _ _ _ old => exact absurd (Option.some.inj declares.2) old
  | @declare a t i input source target _ declared =>
    obtain rfl : a = b := eq_of_inputBank_id source bank declares.1
    obtain ⟨-, rfl⟩ := OperationNode.mem_inputs_of_input? declared
    exact ⟨t, target, i, declared, rfl, connected⟩
  | feed source => exact absurd declares.1.symm (inputBank_id_ne bank source)

/-! ### Names through edits -/

/-- The names of a bank stay distinct with the declared one. -/
theorem namesDistinct_spawned {i : Input} (distinct : b.NamesDistinct) :
    { b with params := b.params ++ [spawnedParam b i fresh] }.NamesDistinct := by
  rw [InputBank.NamesDistinct, List.map_append, List.map_singleton, List.nodup_append]
  refine ⟨distinct, List.pairwise_singleton _ _, ?_⟩
  rintro name mem _ last rfl
  rw [List.mem_singleton.1 last] at mem
  exact (isFirstUnused_nextAvailable (baseName i) _).not_mem mem

theorem eq_or_mem_of_mem_replaceNode {a : InputBank}
    (mem : a ∈ (g.replaceNode (.inputBank b)).inputBanks) : a = b ∨ a ∈ g.inputBanks := by
  obtain ⟨n, memNode, same⟩ := List.mem_map.1 (mem_inputBanks.1 mem)
  split at same
  · cases same
    exact .inl rfl
  · cases same
    exact .inr (mem_inputBanks.2 memNode)

/-- A step keeps the names of a bank distinct. -/
theorem Draws.namesDistinct (draws : g.Draws fresh c h) {id : NodeId}
    (distinct : ∀ b ∈ g.inputBanks, b.id = id → b.NamesDistinct) :
    ∀ b ∈ h.inputBanks, b.id = id → b.NamesDistinct := by
  cases draws with
  | control | supply | feed => exact distinct
  | @declare b t i input source =>
    intro a mem same
    rcases eq_or_mem_of_mem_replaceNode mem with rfl | old
    · exact namesDistinct_spawned (distinct b source same)
    · exact distinct a old same

/-- **Edits keep the names of a bank's parameters distinct**, whichever identifiers they declare
them under. -/
theorem namesDistinct_afterEdits {id : NodeId}
    (distinct : ∀ b ∈ g.inputBanks, b.id = id → b.NamesDistinct) (edits : List Edit) :
    ∀ b ∈ (g.afterEdits edits).inputBanks, b.id = id → b.NamesDistinct :=
  invariant_afterEdits (P := fun g => ∀ b ∈ g.inputBanks, b.id = id → b.NamesDistinct)
    (fun distinct draws => draws.namesDistinct distinct) distinct edits

/-- The bank of an identifier is there after every sequence of edits. -/
theorem exists_inputBank?_afterEdits (bank : b ∈ g.inputBanks) (edits : List Edit) :
    ∃ a, (g.afterEdits edits).inputBank? b.id = some a := by
  have listed : b.id ∈ (g.afterEdits edits).inputBanks.map InputBank.id := by
    rw [(growsTo_afterEdits g edits).bankIds_eq]
    exact List.mem_map_of_mem bank
  obtain ⟨a, mem, same⟩ := List.mem_map.1 listed
  exact ⟨a, inputBank?_eq_some_iff.2 ⟨mem, same⟩⟩

/-- **A declaration adds one parameter and one edge.**  Whenever the rules accept a connection from
the handle of a bank that declares a parameter, and the identifier for it is not used in the bank,
connecting succeeds: the bank gets one parameter, of the type of the input and under the first
unused name, the input is fed from it, and all else is as it was.  And through every sequence of
edits the names of a bank's parameters stay distinct, if they are so at the start. -/
theorem declaration_exact (g : FlowGraph) :
    (∀ b ∈ g.inputBanks, ∀ (c : Connection) (fresh : ParamId), c.Declares b →
      g.checkConnection c = .ok () → b.param? fresh = none →
      ∃ h, g.connect fresh c = .ok h ∧ ∃ t ∈ g.operations, ∃ i p, t.input? i.name = some i ∧
        c = .between b.id Handle.newInputParam t.id i.name ∧ p.id = fresh ∧
        g.DeclaresFor h b p t i) ∧
      ∀ (edits : List Edit), ∀ b ∈ g.inputBanks, b.NamesDistinct →
        ∃ a, (g.afterEdits edits).inputBank? b.id = some a ∧
          a.NamesDistinct := by
  constructor
  · intro b bank c fresh declares accepted unused
    obtain ⟨t, target, i, declared, same, connected⟩ :=
      exists_connect_eq_spawn bank declares accepted
    exact ⟨_, connected, t, target, i, spawnedParam b i fresh, declared, same, rfl,
      declaresFor_spawn bank unused⟩
  · intro edits b bank distinct
    obtain ⟨a, found⟩ := exists_inputBank?_afterEdits bank edits
    obtain ⟨mem, same⟩ := inputBank?_eq_some_iff.1 found
    refine ⟨a, found, namesDistinct_afterEdits (fun b' bank' same' => ?_) edits a mem same⟩
    rwa [eq_of_inputBank_id bank' bank same']

/-- A bank that has used the next names for a text already. -/
def crowdedBank : InputBank :=
  (InputBank.new "bank" "inputs").withParam ⟨"p", "text", .string⟩ none
    |>.withParam ⟨"q", "text2", .bool⟩ none |>.withParam ⟨"r", "text1", .string⟩ none

/-- The bank, and an operation that takes a text. -/
def crowded : FlowGraph where
  nodes :=
    [.inputBank crowdedBank,
      .operation ((OperationNode.new "use" .emitLog).withInput .receiver
        |>.withInput (.parameter "text" .string))]
  edges := []
  nodup_ids := by decide

/-- The bank is to declare a parameter for the text. -/
def bankToText : Connection :=
  .between "bank" Handle.newInputParam "use" "text"

/-- One is declared for the text, and one for the receiver. -/
def crowdedEdits : List Edit :=
  [⟨bankToText, "s"⟩, ⟨.between "bank" Handle.newInputParam "use" Input.receiverName, "t"⟩]

/-- In `crowded`, names are taken: the declared parameter has the next number. -/
theorem crowded_declaration_exact :
    crowdedBank ∈ crowded.inputBanks ∧ bankToText.Declares crowdedBank ∧
      crowded.checkConnection bankToText = .ok () ∧ crowdedBank.param? "s" = none ∧
      crowdedBank.NamesDistinct ∧
      (∃ h, crowded.connect "s" bankToText = .ok h ∧
        ∃ t ∈ crowded.operations, ∃ i p, t.input? i.name = some i ∧
          bankToText = .between "bank" Handle.newInputParam t.id i.name ∧ p.id = "s" ∧
          crowded.DeclaresFor h crowdedBank p t i) ∧
      (∃ a, (crowded.afterEdits crowdedEdits).inputBank? "bank" = some a ∧ a.NamesDistinct) ∧
      (crowded.afterEdits crowdedEdits).inputBanks.map (fun a => a.params.map BankParam.name) =
        [["text", "text2", "text1", "text3", "componentAddress"]] := by
  have bank : crowdedBank ∈ crowded.inputBanks := by decide
  have accepted : crowded.checkConnection bankToText = .ok () := by decide
  have distinct : crowdedBank.NamesDistinct := by decide
  exact ⟨bank, by decide, accepted, by decide, distinct,
    (declaration_exact crowded).1 _ bank _ "s" (by decide) accepted (by decide),
    (declaration_exact crowded).2 crowdedEdits _ bank distinct, by decide⟩

end FlowGraph

end FlowPlan
