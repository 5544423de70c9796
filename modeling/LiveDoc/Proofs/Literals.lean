import LiveDoc.Proofs.DriverFed
import LiveDoc.Proofs.Invocations

/-!
# Trees without call nodes

A reader that drives an engine sees an object as the mapping that its members make, where a repeated
key counts once. It invokes nothing on a tree exactly if none of the objects that it sees there is a
call node, and then the tree comes to its value.
-/

namespace LiveDoc

variable {α β : Type}

/-- What a run has invoked stays invoked, whatever follows it. -/
theorem Run.calls_andThen_ne_nil {r : Run α} {past : List Event}
    (invoked : (r.after past).calls ≠ []) (f : α → Run β) :
    ((r.andThen f).after past).calls ≠ [] := by
  cases ended : (r.after past).outcome with
  | error e =>
    rw [after_andThen_of_error ended]
    exact invoked
  | ok a =>
    rw [after_andThen_of_ok ended]
    simp [Course.followedBy, invoked]

namespace Entries

/-- After an insertion an entry is an old one or has the new value. -/
theorem mem_or_eq_of_mem_insert {key value : Value} {es : Entries} {entry : Value × Value}
    (inside : entry ∈ es.insert key value) : entry ∈ es ∨ entry.2 = value := by
  induction es with
  | nil => exact .inr (List.mem_singleton.mp inside ▸ rfl)
  | cons first es ih =>
    unfold insert at inside
    split at inside
    · rcases List.mem_cons.mp inside with rfl | old
      · exact .inr rfl
      · exact .inl (List.mem_cons_of_mem first old)
    · rcases List.mem_cons.mp inside with rfl | later
      · exact .inl List.mem_cons_self
      · exact (ih later).imp_left (List.mem_cons_of_mem first)

/-- The value of an entry is the value of a pair that the entries are built from. -/
theorem exists_pair_of_mem_ofPairs {ps : List (Value × Value)} {entry : Value × Value}
    (inside : entry ∈ ofPairs ps) : ∃ p ∈ ps, p.2 = entry.2 := by
  suffices ∀ built : Entries, entry ∈ ps.foldl (fun es p => insert p.1 p.2 es) built →
      entry ∈ built ∨ ∃ p ∈ ps, p.2 = entry.2 from
    (this [] inside).resolve_left (List.not_mem_nil)
  clear inside
  induction ps with
  | nil => exact fun built inside => .inl inside
  | cons p ps ih =>
    intro built inside
    rcases ih _ inside with early | ⟨q, later, same⟩
    · rcases mem_or_eq_of_mem_insert early with old | new
      · exact .inl old
      · exact .inr ⟨p, List.mem_cons_self, new.symm⟩
    · exact .inr ⟨q, List.mem_cons_of_mem p later, same⟩

end Entries

namespace Json.Tree

open Engine (callNode? callNode?_eq_some normalizeArguments)

mutual

/-- Whether no object of a tree makes a call node. -/
def isLiteral (index : TagIndex) : Tree → Bool
  | .array ts => allLiteral index ts
  | .object ms => membersLiteral index ms && (callNode? index (Tree.object ms).toValue).isNone
  | _ => true

/-- Whether this holds of every tree of a list. -/
def allLiteral (index : TagIndex) : List Tree → Bool
  | [] => true
  | t :: ts => t.isLiteral index && allLiteral index ts

/-- Whether this holds of the trees of all members. -/
def membersLiteral (index : TagIndex) : List (String × Tree) → Bool
  | [] => true
  | (_, t) :: ms => t.isLiteral index && membersLiteral index ms

end

variable {index : TagIndex} {t : Tree} {ts : List Tree} {ms : List (String × Tree)}

/-- A literal tree makes no call node. -/
theorem callNode?_of_literal (literal : t.isLiteral index = true) :
    callNode? index t.toValue = none := by
  cases t with
  | object ms =>
    simp only [isLiteral, Bool.and_eq_true, Option.isNone_iff_eq_none] at literal
    exact literal.2
  | _ => rfl

/-- Nor do the items of a literal list. -/
theorem callNode?_of_allLiteral (literal : allLiteral index ts = true) {v : Value}
    (item : v ∈ toValues ts) : callNode? index v = none := by
  induction ts with
  | nil => contradiction
  | cons t ts ih =>
    simp only [allLiteral, Bool.and_eq_true] at literal
    rcases List.mem_cons.mp item with rfl | later
    · exact callNode?_of_literal literal.1
    · exact ih literal.2 later

/-- Nor do the arguments that a literal tree stands for. -/
theorem callNode?_of_argument (literal : t.isLiteral index = true) {v : Value}
    (argument : v ∈ normalizeArguments t.toValue) : callNode? index v = none := by
  cases t with
  | array ts => exact callNode?_of_allLiteral literal argument
  | _ =>
    rw [List.mem_singleton.mp argument]
    exact callNode?_of_literal literal

/-- The value of a pair of literal members is the value of a literal tree. -/
theorem exists_member (literal : membersLiteral index ms = true) {p : Value × Value}
    (pair : p ∈ toPairs ms) : ∃ t : Tree, t.isLiteral index = true ∧ p.2 = t.toValue := by
  induction ms with
  | nil => contradiction
  | cons m ms ih =>
    simp only [membersLiteral, Bool.and_eq_true] at literal
    rcases List.mem_cons.mp pair with rfl | later
    · exact ⟨m.2, literal.1, rfl⟩
    · exact ih literal.2 later

end Json.Tree

namespace Engine

open Json (Tree)

variable (e : Engine)

mutual

/-- A literal tree comes to its value, and nothing is shown or invoked. -/
theorem resolve_literal : ∀ t : Tree, t.isLiteral e.index = true →
    t.resolve e.revive = .done t.toValue
  | .array ts, literal => by
    rw [Tree.resolve, resolveList_literal ts literal, Run.done_andThen, Tree.toValue]
  | .object ms, literal => by
    have surface := Tree.callNode?_of_literal literal
    simp only [Tree.isLiteral, Bool.and_eq_true] at literal
    rw [Tree.resolve, resolveMembers_literal ms literal.1, Run.done_andThen]
    exact evaluate_shallow e surface
  | .null, _ | .bool _, _ | .int _, _ | .float _, _ | .text _, _ => rfl

/-- The same for a list of trees. -/
theorem resolveList_literal : ∀ ts : List Tree, Tree.allLiteral e.index ts = true →
    Tree.resolveList e.revive ts = .done (Tree.toValues ts)
  | [], _ => rfl
  | t :: ts, literal => by
    simp only [Tree.allLiteral, Bool.and_eq_true] at literal
    rw [Tree.resolveList, resolve_literal t literal.1, resolveList_literal ts literal.2]
    simp [Tree.toValues]

/-- The same for the members of an object. -/
theorem resolveMembers_literal : ∀ ms : List (String × Tree),
    Tree.membersLiteral e.index ms = true →
      Tree.resolveMembers e.revive ms = .done (Tree.toPairs ms)
  | [], _ => rfl
  | (k, t) :: ms, literal => by
    simp only [Tree.membersLiteral, Bool.and_eq_true] at literal
    rw [Tree.resolveMembers, resolve_literal t literal.1, resolveMembers_literal ms literal.2]
    simp [Tree.toPairs]

end

/-- A call node whose arguments hold no further ones is invoked. -/
theorem calls_of_callNode {v source : Value} {name : String}
    (call : callNode? e.index v = some (name, source))
    (literal : ∀ x ∈ normalizeArguments source, callNode? e.index x = none) (past : List Event) :
    ((e.revive v).after past).calls ≠ [] := by
  rw [revive, evaluate_of_callNode e call, evaluateAll_shallow e literal, Run.done_andThen]
  obtain ⟨made, _, _, calls, -⟩ := e.invoke_course name (normalizeArguments source) past
  simp [calls]

/-- An object whose members are literal is invoked if it makes a call node. -/
theorem calls_of_object {ms : List (String × Tree)} (members : Tree.membersLiteral e.index ms = true)
    {node : String × Value} (call : callNode? e.index (Tree.object ms).toValue = some node)
    (past : List Event) : (((Tree.object ms).resolve e.revive).after past).calls ≠ [] := by
  obtain ⟨key, single, -⟩ := callNode?_eq_some.mp call
  have entry : (Value.text key, node.2) ∈ Entries.ofPairs (Tree.toPairs ms) := by
    rw [Value.mapping.inj single]
    exact List.mem_singleton.mpr rfl
  obtain ⟨p, pair, same⟩ := Entries.exists_pair_of_mem_ofPairs entry
  obtain ⟨t, literal, value⟩ := Tree.exists_member members pair
  rw [Tree.resolve, resolveMembers_literal e ms members, Run.done_andThen]
  refine calls_of_callNode e call (fun x argument => ?_) past
  refine Tree.callNode?_of_argument literal ?_
  rwa [← value, same]

mutual

/-- A tree that is not literal has a function invoked. -/
theorem calls_of_not_literal : ∀ t : Tree, t.isLiteral e.index = false → ∀ past : List Event,
    ((t.resolve e.revive).after past).calls ≠ []
  | .array ts, calling, past =>
    Run.calls_andThen_ne_nil (calls_of_not_allLiteral ts calling past) _
  | .object ms, calling, past => by
    cases members : Tree.membersLiteral e.index ms with
    | false => exact Run.calls_andThen_ne_nil (calls_of_not_membersLiteral ms members past) _
    | true =>
      cases call : callNode? e.index (Tree.object ms).toValue with
      | none => simp [Tree.isLiteral, members, call] at calling
      | some node => exact calls_of_object e members call past

/-- The same for a list of trees. -/
theorem calls_of_not_allLiteral : ∀ ts : List Tree, Tree.allLiteral e.index ts = false →
    ∀ past : List Event, ((Tree.resolveList e.revive ts).after past).calls ≠ []
  | t :: ts, calling, past => by
    cases first : t.isLiteral e.index with
    | false => exact Run.calls_andThen_ne_nil (calls_of_not_literal t first past) _
    | true =>
      have rest : Tree.allLiteral e.index ts = false := by
        simpa [Tree.allLiteral, first] using calling
      rw [Tree.resolveList, resolve_literal e t first, Run.done_andThen]
      exact Run.calls_andThen_ne_nil (calls_of_not_allLiteral ts rest past) _

/-- The same for the members of an object. -/
theorem calls_of_not_membersLiteral : ∀ ms : List (String × Tree),
    Tree.membersLiteral e.index ms = false →
      ∀ past : List Event, ((Tree.resolveMembers e.revive ms).after past).calls ≠ []
  | (_, t) :: ms, calling, past => by
    cases first : t.isLiteral e.index with
    | false => exact Run.calls_andThen_ne_nil (calls_of_not_literal t first past) _
    | true =>
      have rest : Tree.membersLiteral e.index ms = false := by
        simpa [Tree.membersLiteral, first] using calling
      rw [Tree.resolveMembers, resolve_literal e t first, Run.done_andThen]
      exact Run.calls_andThen_ne_nil (calls_of_not_membersLiteral ms rest past) _

end

/-- A reader invokes nothing on a tree exactly if the tree is literal. -/
theorem calls_resolve_eq_nil_iff (t : Tree) (past : List Event) :
    ((t.resolve e.revive).after past).calls = [] ↔ t.isLiteral e.index = true := by
  cases literal : t.isLiteral e.index with
  | false => simpa using calls_of_not_literal e t literal past
  | true => simp [resolve_literal e t literal]

end Engine

end LiveDoc
