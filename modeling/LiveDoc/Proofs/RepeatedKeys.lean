import LiveDoc.Proofs.JsonGrammar
import LiveDoc.Proofs.Literals

/-!
# Repeated keys

An object that repeats a key makes a mapping in which the key has its first place and its last value.
The same can be done to the tree: the collapsed tree has the value of the tree and repeats no key. A
reader that drives an engine takes the same course on both if, in every object, collapsing neither
drops nor moves a member that holds calls. It does drop the others, but those are not heard of.
-/

namespace LiveDoc.Json.Tree

open Engine (callNode? callNodes callNodesAll callNodesOfEntries)

/-! ## Merged members -/

/-- Members with a tree under a key: in the key's place if it is there, else at the end. -/
def put (k : String) (t : Tree) : List (String × Tree) → List (String × Tree)
  | [] => [(k, t)]
  | m :: ms => if m.1 = k then (k, t) :: ms else m :: put k t ms

/-- Members in which a repeated key has its first place and its last tree. -/
def merged (ms : List (String × Tree)) : List (String × Tree) :=
  ms.foldl (fun built m => put m.1 m.2 built) []

variable {k : String} {t : Tree} {ms : List (String × Tree)} {m : String × Tree}

theorem mem_put (inside : m ∈ put k t ms) : m = (k, t) ∨ m ∈ ms := by
  induction ms with
  | nil => exact .inl (List.mem_singleton.mp inside)
  | cons first ms ih =>
    unfold put at inside
    split at inside
    · exact (List.mem_cons.mp inside).imp_right (List.mem_cons_of_mem first)
    · rcases List.mem_cons.mp inside with rfl | later
      · exact .inr List.mem_cons_self
      · exact (ih later).imp_right (List.mem_cons_of_mem first)

/-- What holds of no members and is kept by putting one of them holds of merged members. -/
theorem merged_induction {motive : List (String × Tree) → Prop} (none : motive [])
    (more : ∀ m ∈ ms, ∀ built, motive built → motive (put m.1 m.2 built)) : motive (merged ms) := by
  suffices ∀ built, motive built → motive (ms.foldl (fun built m => put m.1 m.2 built) built) from
    this [] none
  induction ms with
  | nil => exact fun built holds => holds
  | cons m ms ih =>
    exact fun built holds => ih (fun n inside => more n (List.mem_cons_of_mem m inside)) _
      (more m List.mem_cons_self built holds)

/-- Merged members are members. -/
theorem mem_merged (inside : m ∈ merged ms) : m ∈ ms := by
  have all : ∀ m ∈ merged ms, m ∈ ms := by
    refine merged_induction (motive := fun built => ∀ m ∈ built, m ∈ ms) (by simp) ?_
    intro n member built holds m inside
    rcases mem_put inside with rfl | old
    · exact member
    · exact holds m old
  exact all m inside

/-- Putting a tree under a key repeats no key. -/
theorem distinct_put (distinct : DistinctMembers ms) (other : t.Distinct) :
    DistinctMembers (put k t ms) := by
  induction ms with
  | nil => exact ⟨by simp, other, trivial⟩
  | cons first ms ih =>
    obtain ⟨new, own, rest⟩ := distinct
    unfold put
    split
    · rename_i same
      exact ⟨same ▸ new, other, rest⟩
    · rename_i apart
      refine ⟨fun m inside => ?_, own, ih rest⟩
      rcases mem_put inside with rfl | old
      · exact fun same => apart same.symm
      · exact new m old

/-- Merged members repeat no key. -/
theorem distinct_merged (distinct : ∀ m ∈ ms, m.2.Distinct) : DistinctMembers (merged ms) :=
  merged_induction trivial fun m member _ built => distinct_put built (distinct m member)

/-- Putting a tree under a key puts what is made of it under the key. -/
theorem insert_text (f : String × Tree → Value) :
    Entries.insert (.text k) (f (k, t)) (ms.map fun m => (.text m.1, f m)) =
      (put k t ms).map fun m => (.text m.1, f m) := by
  induction ms with
  | nil => rfl
  | cons m ms ih =>
    by_cases same : m.1 = k
    · simp [put, Entries.insert, Value.eqv, same]
    · have apart : k ≠ m.1 := fun h => same h.symm
      simp [put, Entries.insert, Value.eqv, same, apart, ih]

/-- The entries that are built from what is made of members are those that are made of the merged
members. -/
theorem ofPairs_map (f : String × Tree → Value) (ms : List (String × Tree)) :
    Entries.ofPairs (ms.map fun m => (.text m.1, f m)) =
      (merged ms).map fun m => (.text m.1, f m) := by
  suffices ∀ built : List (String × Tree),
      (ms.map fun m => (Value.text m.1, f m)).foldl (fun es p => Entries.insert p.1 p.2 es)
          (built.map fun m => (.text m.1, f m)) =
        (ms.foldl (fun built m => put m.1 m.2 built) built).map fun m => (.text m.1, f m) from
    this []
  induction ms with
  | nil => exact fun built => rfl
  | cons m ms ih =>
    intro built
    rw [List.map_cons, List.foldl_cons, List.foldl_cons, insert_text f, ih]

/-- Changing trees and merging may change places. -/
theorem merged_map (g : Tree → Tree) (ms : List (String × Tree)) :
    merged (ms.map fun m => (m.1, g m.2)) = (merged ms).map fun m => (m.1, g m.2) := by
  have put_map (k : String) (t : Tree) (built : List (String × Tree)) :
      put k (g t) (built.map fun m => (m.1, g m.2)) =
        (put k t built).map fun m => (m.1, g m.2) := by
    induction built with
    | nil => rfl
    | cons m built ih =>
      simp only [List.map_cons, put, ih]
      split <;> rfl
  suffices ∀ built : List (String × Tree),
      (ms.map fun m => (m.1, g m.2)).foldl (fun built m => put m.1 m.2 built)
          (built.map fun m => (m.1, g m.2)) =
        (ms.foldl (fun built m => put m.1 m.2 built) built).map fun m => (m.1, g m.2) from this []
  induction ms with
  | nil => exact fun built => rfl
  | cons m ms ih =>
    intro built
    rw [List.map_cons, List.foldl_cons, List.foldl_cons, put_map, ih]

/-! ## Collapsed trees -/

mutual

/-- A tree in which every object has its members merged. -/
def collapsed : Tree → Tree
  | .array ts => .array (collapsedAll ts)
  | .object ms => .object (merged (collapsedMembers ms))
  | t => t

/-- Trees with the members of their objects merged. -/
def collapsedAll : List Tree → List Tree
  | [] => []
  | t :: ts => t.collapsed :: collapsedAll ts

/-- Members with the members of the objects in them merged. -/
def collapsedMembers : List (String × Tree) → List (String × Tree)
  | [] => []
  | (k, t) :: ms => (k, t.collapsed) :: collapsedMembers ms

end

theorem collapsedMembers_eq_map (ms : List (String × Tree)) :
    collapsedMembers ms = ms.map fun m => (m.1, m.2.collapsed) := by
  induction ms with
  | nil => rfl
  | cons m ms ih => simp [collapsedMembers, ih]

theorem toPairs_eq_map (ms : List (String × Tree)) :
    toPairs ms = ms.map fun m => (.text m.1, m.2.toValue) := by
  induction ms with
  | nil => rfl
  | cons m ms ih => simp [toPairs, ih]

mutual

/-- A collapsed tree repeats no key. -/
theorem distinct_collapsed : ∀ t : Tree, t.collapsed.Distinct
  | .array ts => distinct_collapsedAll ts
  | .object ms => distinct_merged (distinct_collapsedMembers ms)
  | .null | .bool _ | .int _ | .float _ | .text _ => trivial

theorem distinct_collapsedAll : ∀ ts : List Tree, DistinctAll (collapsedAll ts)
  | [] => trivial
  | t :: ts => ⟨distinct_collapsed t, distinct_collapsedAll ts⟩

theorem distinct_collapsedMembers : ∀ ms : List (String × Tree),
    ∀ m ∈ collapsedMembers ms, m.2.Distinct
  | (_, t) :: ms, m, inside => by
    rcases List.mem_cons.mp inside with rfl | later
    · exact distinct_collapsed t
    · exact distinct_collapsedMembers ms m later

end

mutual

/-- A collapsed tree has the value of the tree. -/
theorem collapsed_toValue : ∀ t : Tree, t.collapsed.toValue = t.toValue
  | .array ts => by rw [collapsed, toValue, toValue, collapsedAll_toValues]
  | .object ms => by
    have distinct := distinct_merged (distinct_collapsedMembers ms)
    rw [collapsed, toValue_object distinct, toValue, toPairs_eq_map (merged _),
      ← ofPairs_map fun m => m.2.toValue, ← toPairs_eq_map, collapsedMembers_toPairs ms]
  | .null | .bool _ | .int _ | .float _ | .text _ => rfl

theorem collapsedAll_toValues : ∀ ts : List Tree, toValues (collapsedAll ts) = toValues ts
  | [] => rfl
  | t :: ts => by
    rw [collapsedAll, toValues, toValues, collapsed_toValue, collapsedAll_toValues]

theorem collapsedMembers_toPairs : ∀ ms : List (String × Tree),
    toPairs (collapsedMembers ms) = toPairs ms
  | [] => rfl
  | (_, t) :: ms => by
    rw [collapsedMembers, toPairs, toPairs, collapsed_toValue, collapsedMembers_toPairs]

end

/-! ## The documents that trees say -/

mutual

/-- A tree without repeated keys whose numbers can be written says a JSON document. -/
theorem isJson_of_distinct : ∀ t : Tree, t.Distinct → t.Regular → t.toValue.IsJson
  | .array ts, distinct, regular => areJson_of_distinct ts distinct regular
  | .object ms, distinct, regular => by
    rw [toValue_object distinct]
    exact holdJson_of_distinct ms distinct regular
  | .null, _, _ | .bool _, _, _ | .text _, _, _ => trivial
  | .int _, _, regular => regular
  | .float _, _, regular => regular

theorem areJson_of_distinct : ∀ ts : List Tree, DistinctAll ts → AllRegular ts →
    Value.AreJson (toValues ts)
  | [], _, _ => trivial
  | t :: ts, distinct, regular =>
    ⟨isJson_of_distinct t distinct.1 regular.1, areJson_of_distinct ts distinct.2 regular.2⟩

theorem holdJson_of_distinct : ∀ ms : List (String × Tree), DistinctMembers ms →
    MembersRegular ms → Value.HoldJson (toPairs ms)
  | [], _, _ => trivial
  | (k, t) :: ms, ⟨new, own, rest⟩, regular => by
    refine ⟨⟨k, rfl⟩, fun entry inside same => ?_, isJson_of_distinct t own regular.1,
      holdJson_of_distinct ms rest regular.2⟩
    have key : entry.1 ∈ ms.map fun m => Value.text m.1 :=
      toPairs_keys ms ▸ List.mem_map_of_mem inside
    obtain ⟨m, member, named⟩ := List.mem_map.mp key
    exact new m member (Value.text.inj (named.trans same))

end

theorem membersRegular_iff : MembersRegular ms ↔ ∀ m ∈ ms, m.2.Regular := by
  induction ms with
  | nil => simp [MembersRegular]
  | cons m ms ih => simp [MembersRegular, ih]

mutual

/-- Collapsing keeps numbers that can be written. -/
theorem regular_collapsed : ∀ t : Tree, t.Regular → t.collapsed.Regular
  | .array ts, regular => allRegular_collapsed ts regular
  | .object ms, regular => by
    have members := membersRegular_iff.mp (membersRegular_collapsed ms regular)
    exact membersRegular_iff.mpr fun m inside => members m (mem_merged inside)
  | .null, _ | .bool _, _ | .text _, _ => trivial
  | .int _, regular => regular
  | .float _, regular => regular

theorem allRegular_collapsed : ∀ ts : List Tree, AllRegular ts → AllRegular (collapsedAll ts)
  | [], _ => trivial
  | t :: ts, regular => ⟨regular_collapsed t regular.1, allRegular_collapsed ts regular.2⟩

theorem membersRegular_collapsed : ∀ ms : List (String × Tree), MembersRegular ms →
    MembersRegular (collapsedMembers ms)
  | [], _ => trivial
  | (_, t) :: ms, regular => ⟨regular_collapsed t regular.1, membersRegular_collapsed ms regular.2⟩

end

/-- A tree whose numbers can be written says a JSON document. -/
theorem isJson_of_regular (regular : t.Regular) : t.toValue.IsJson := by
  rw [← collapsed_toValue]
  exact isJson_of_distinct t.collapsed (distinct_collapsed t) (regular_collapsed t regular)

/-! ## Members that hold calls -/

variable {index : TagIndex}

/-- Whether the value of a tree holds call nodes. -/
def calls (index : TagIndex) (t : Tree) : Bool := !(callNodes index true t.toValue).isEmpty

/-- The members whose values hold call nodes. -/
def calling (index : TagIndex) (ms : List (String × Tree)) : List (String × Tree) :=
  ms.filter fun m => m.2.calls index

mutual

/-- Whether, in every object of a tree, merging the members neither drops nor moves those that hold
calls. -/
def isSteady (index : TagIndex) : Tree → Bool
  | .array ts => allSteady index ts
  | .object ms => membersSteady index ms &&
      (calling index (merged ms)).map (·.1) == (calling index ms).map (·.1)
  | _ => true

/-- Whether this holds of every tree of a list. -/
def allSteady (index : TagIndex) : List Tree → Bool
  | [] => true
  | t :: ts => t.isSteady index && allSteady index ts

/-- Whether this holds of the trees of all members. -/
def membersSteady (index : TagIndex) : List (String × Tree) → Bool
  | [] => true
  | (_, t) :: ms => t.isSteady index && membersSteady index ms

end

/-- Members with the same different keys, all among other members, are these. -/
theorem eq_of_keys {ms ns : List (String × Tree)} (keys : ms.map (·.1) = ns.map (·.1))
    (apart : (ns.map (·.1)).Nodup) (among : ∀ m ∈ ms, m ∈ ns) : ms = ns := by
  induction ms generalizing ns with
  | nil => exact (List.map_eq_nil_iff.mp keys.symm).symm
  | cons m ms ih =>
    obtain ⟨n, ns, rfl⟩ : ∃ n rest, ns = n :: rest := by
      cases ns with
      | nil => simp at keys
      | cons n rest => exact ⟨n, rest, rfl⟩
    obtain ⟨first, rest⟩ := List.cons.inj keys
    obtain ⟨new, others⟩ := List.nodup_cons.mp apart
    obtain rfl : m = n := by
      rcases List.mem_cons.mp (among m List.mem_cons_self) with same | later
      · exact same
      · exact absurd (first ▸ List.mem_map_of_mem later) new
    rw [ih rest others fun other inside => ?_]
    rcases List.mem_cons.mp (among other (List.mem_cons_of_mem m inside)) with rfl | later
    · exact absurd (rest ▸ List.mem_map_of_mem inside) new
    · exact later

theorem nodup_keys (distinct : DistinctMembers ms) : (ms.map (·.1)).Nodup := by
  induction ms with
  | nil => exact List.nodup_nil
  | cons m ms ih =>
    obtain ⟨new, -, rest⟩ := distinct
    refine List.nodup_cons.mpr ⟨fun inside => ?_, ih rest⟩
    obtain ⟨other, member, same⟩ := List.mem_map.mp inside
    exact new other member same

/-- Members that are merged without dropping or moving those that hold calls keep these as they are,
and none of these repeats a key. -/
theorem calling_merged (distinct : ∀ m ∈ ms, m.2.Distinct)
    (keys : (calling index (merged ms)).map (·.1) = (calling index ms).map (·.1)) :
    calling index (merged ms) = calling index ms ∧ ((calling index ms).map (·.1)).Nodup := by
  have apart : ((calling index (merged ms)).map (·.1)).Nodup :=
    (nodup_keys (distinct_merged distinct)).sublist (List.filter_sublist.map _)
  rw [keys] at apart
  refine ⟨eq_of_keys keys apart fun m inside => ?_, apart⟩
  obtain ⟨member, called⟩ := List.mem_filter.mp inside
  exact List.mem_filter.mpr ⟨mem_merged member, called⟩

mutual

/-- A tree without repeated keys is literal if its value holds no call nodes. -/
theorem isLiteral_of_distinct : ∀ t : Tree, t.Distinct → callNodes index true t.toValue = [] →
    t.isLiteral index = true
  | .array ts, distinct, silent => allLiteral_of_distinct ts distinct silent
  | .object ms, distinct, silent => by
    have value := toValue_object distinct
    cases call : callNode? index (Tree.object ms).toValue with
    | some node => simp [Engine.callNodes_of_callNode call] at silent
    | none =>
      rw [value] at silent call
      rw [Engine.callNodes_mapping call] at silent
      simp [isLiteral, membersLiteral_of_distinct ms distinct silent, value, call]
  | .null, _, _ | .bool _, _, _ | .int _, _, _ | .float _, _, _ | .text _, _, _ => rfl

theorem allLiteral_of_distinct : ∀ ts : List Tree, DistinctAll ts →
    callNodesAll index true (toValues ts) = [] → allLiteral index ts = true
  | [], _, _ => rfl
  | t :: ts, distinct, silent => by
    obtain ⟨first, rest⟩ := List.append_eq_nil_iff.mp silent
    simp [allLiteral, isLiteral_of_distinct t distinct.1 first,
      allLiteral_of_distinct ts distinct.2 rest]

theorem membersLiteral_of_distinct : ∀ ms : List (String × Tree), DistinctMembers ms →
    callNodesOfEntries index true (toPairs ms) = [] → membersLiteral index ms = true
  | [], _, _ => rfl
  | (_, t) :: ms, distinct, silent => by
    obtain ⟨first, rest⟩ := List.append_eq_nil_iff.mp silent
    simp [membersLiteral, isLiteral_of_distinct t distinct.2.1 first,
      membersLiteral_of_distinct ms distinct.2.2 rest]

end

end LiveDoc.Json.Tree

namespace LiveDoc.Engine

open Json (Tree)
open Json.Tree (calling collapsedMembers merged toPairs)

variable (e : Engine) {ms : List (String × Tree)}

/-- The value of a member, if those that hold calls have the values of a mapping. -/
def memberValue (index : TagIndex) (results : Entries) (m : String × Tree) : Value :=
  if m.2.calls index then (Entries.text? results m.1).getD .null else m.2.toValue

/-- Members without repeated keys are resolved by resolving those of them that hold calls. -/
theorem resolveMembers_eq_calling (distinct : ∀ m ∈ ms, m.2.Distinct)
    (apart : ((calling e.index ms).map (·.1)).Nodup) :
    Tree.resolveMembers e.revive ms =
      (Tree.resolveMembers e.revive (calling e.index ms)).andThen fun results =>
        .done (ms.map fun m => (.text m.1, memberValue e.index results m)) := by
  induction ms with
  | nil => rfl
  | cons m ms ih =>
    obtain ⟨k, t⟩ := m
    have others := ih fun m inside => distinct m (List.mem_cons_of_mem _ inside)
    cases called : t.calls e.index with
    | false =>
      have dropped : calling e.index ((k, t) :: ms) = calling e.index ms := by
        simp [calling, called]
      rw [dropped] at apart ⊢
      have silent : callNodes e.index true t.toValue = [] := by
        simpa [Tree.calls] using called
      have literal := Tree.isLiteral_of_distinct t (distinct (k, t) List.mem_cons_self) silent
      rw [Tree.resolveMembers, resolve_literal e t literal, Run.done_andThen, others apart]
      simp [Run.andThen_assoc, memberValue, called]
    | true =>
      have kept : calling e.index ((k, t) :: ms) = (k, t) :: calling e.index ms := by
        simp [calling, called]
      rw [kept] at apart ⊢
      obtain ⟨new, apart⟩ := List.nodup_cons.mp apart
      rw [Tree.resolveMembers, Tree.resolveMembers, others apart]
      simp only [Run.andThen_assoc, Run.done_andThen, List.map_cons]
      refine Run.andThen_congr fun v _ => Run.andThen_congr fun results _ => ?_
      have first : memberValue e.index ((.text k, v) :: results) (k, t) = v := by
        simp [memberValue, called, Entries.text?, Entries.get?, Value.eqv]
      have later : ∀ m ∈ ms, memberValue e.index ((.text k, v) :: results) m =
          memberValue e.index results m := by
        intro m inside
        cases calls : m.2.calls e.index with
        | false => simp [memberValue, calls]
        | true =>
          have member : m ∈ calling e.index ms := List.mem_filter.mpr ⟨inside, calls⟩
          have different : m.1 ≠ k := fun same => new (List.mem_map.mpr ⟨m, member, same⟩)
          simp [memberValue, calls, Entries.text?, Entries.get?, Value.eqv, different]
      rw [first, List.map_congr_left fun m inside => congrArg (Prod.mk _) (later m inside)]

/-- An object is resolved as if its members were merged, if merging neither drops nor moves those that
hold calls. -/
theorem resolve_merged (distinct : ∀ m ∈ ms, m.2.Distinct)
    (keys : (calling e.index (merged ms)).map (·.1) = (calling e.index ms).map (·.1)) :
    (Tree.object ms).resolve e.revive = (Tree.object (merged ms)).resolve e.revive := by
  obtain ⟨same, apart⟩ := Tree.calling_merged distinct keys
  have separate := Tree.toPairs_separate (Tree.distinct_merged distinct)
  rw [Tree.resolve, Tree.resolve, resolveMembers_eq_calling e distinct apart,
    resolveMembers_eq_calling e (fun m inside => distinct m (Tree.mem_merged inside))
      (same ▸ apart), same]
  simp only [Run.andThen_assoc, Run.done_andThen]
  refine Run.andThen_congr fun results _ => ?_
  have built : Entries.Separate
      ((merged ms).map fun m => (.text m.1, memberValue e.index results m)) := by
    refine Entries.separate_of_keys separate ?_
    rw [Tree.toPairs_keys, List.map_map]
    rfl
  rw [Tree.ofPairs_map, Entries.ofPairs_of_separate built]

mutual

/-- A reader takes the same course on a steady tree and on the collapsed one. -/
theorem resolve_collapsed : ∀ t : Tree, t.isSteady e.index = true →
    t.resolve e.revive = t.collapsed.resolve e.revive
  | .array ts, steady => by
    rw [Tree.collapsed, Tree.resolve, Tree.resolve, resolveList_collapsed ts steady]
  | .object ms, steady => by
    simp only [Tree.isSteady, Bool.and_eq_true, beq_iff_eq] at steady
    have members := resolveMembers_collapsed ms steady.1
    have distinct := Tree.distinct_collapsedMembers ms
    have keys : (calling e.index (merged (collapsedMembers ms))).map (·.1) =
        (calling e.index (collapsedMembers ms)).map (·.1) := by
      have calling_collapsed (ms : List (String × Tree)) :
          (calling e.index (ms.map fun m => (m.1, m.2.collapsed))).map (·.1) =
            (calling e.index ms).map (·.1) := by
        simp [calling, List.filter_map, Function.comp_def, Tree.calls, Tree.collapsed_toValue]
      rw [Tree.collapsedMembers_eq_map, Tree.merged_map, calling_collapsed, calling_collapsed,
        steady.2]
    calc (Tree.object ms).resolve e.revive
        = (Tree.object (collapsedMembers ms)).resolve e.revive := by
          rw [Tree.resolve, Tree.resolve, members]
      _ = (Tree.object (merged (collapsedMembers ms))).resolve e.revive :=
          resolve_merged e distinct keys
  | .null, _ | .bool _, _ | .int _, _ | .float _, _ | .text _, _ => rfl

theorem resolveList_collapsed : ∀ ts : List Tree, Tree.allSteady e.index ts = true →
    Tree.resolveList e.revive ts = Tree.resolveList e.revive (Tree.collapsedAll ts)
  | [], _ => rfl
  | t :: ts, steady => by
    simp only [Tree.allSteady, Bool.and_eq_true] at steady
    rw [Tree.collapsedAll, Tree.resolveList, Tree.resolveList, resolve_collapsed t steady.1,
      resolveList_collapsed ts steady.2]

theorem resolveMembers_collapsed : ∀ ms : List (String × Tree),
    Tree.membersSteady e.index ms = true →
      Tree.resolveMembers e.revive ms = Tree.resolveMembers e.revive (collapsedMembers ms)
  | [], _ => rfl
  | (_, t) :: ms, steady => by
    simp only [Tree.membersSteady, Bool.and_eq_true] at steady
    rw [collapsedMembers, Tree.resolveMembers, Tree.resolveMembers, resolve_collapsed t steady.1,
      resolveMembers_collapsed ms steady.2]

end

end LiveDoc.Engine
