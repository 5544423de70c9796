import LiveDoc.Engine
import LiveDoc.Proofs.Course

/-!
# Call nodes of a document

The call nodes of a document stand in a fixed order, arguments before their call and the rest from
left to right; neither what functions return nor what they show has a part in it. Given a result for
every call node in that order, `fill` puts the results into the document. The equations here take
the place of the definitions in everything that follows: one for a call node and one for each
container that is none.

With `deep` a whole document is searched; without it only a call node and those that stand directly
among the arguments of a call node are found, as when an engine looks at a single node.
-/

namespace LiveDoc.Engine

/-- A call node: the function that it names and the value that holds its arguments. -/
structure CallNode where
  name : String
  source : Value

/-- The call nodes of a node with one entry, `inner` being those of the entry's value. -/
def entryCallNodes (index : TagIndex) (deep : Bool) (key : String) (source : Value)
    (inner : List CallNode) : List CallNode :=
  match index.lookup key with
  | some name => inner ++ [⟨name, source⟩]
  | none => if deep then inner else []

mutual

/-- The call nodes of a value, arguments before their call. -/
def callNodes (index : TagIndex) (deep : Bool) : Value → List CallNode
  | .mapping [(.text key, .list xs)] =>
    entryCallNodes index deep key (.list xs) (callNodesAll index deep xs)
  | .mapping [(.text key, .tuple xs)] =>
    entryCallNodes index deep key (.tuple xs) (callNodesAll index deep xs)
  | .mapping [(.text key, v)] => entryCallNodes index deep key v (callNodes index deep v)
  | .mapping es => if deep then callNodesOfEntries index deep es else []
  | .list xs => if deep then callNodesAll index deep xs else []
  | .tuple xs => if deep then callNodesAll index deep xs else []
  | _ => []
termination_by structural v => v

/-- The call nodes of the items of a list, from left to right. -/
def callNodesAll (index : TagIndex) (deep : Bool) : List Value → List CallNode
  | [] => []
  | x :: xs => callNodes index deep x ++ callNodesAll index deep xs
termination_by structural xs => xs

/-- The call nodes of the values of a mapping, in order. -/
def callNodesOfEntries (index : TagIndex) (deep : Bool) : List (Value × Value) → List CallNode
  | [] => []
  | (_, x) :: es => callNodes index deep x ++ callNodesOfEntries index deep es
termination_by structural es => es

end

/-- A node with one entry in which the call nodes have their results: the last of them if the node
is one itself, and else the entry with its value replaced if `deep`. -/
def fillEntry (index : TagIndex) (deep : Bool) (key : String) (old new : Value)
    (results : List Value) : Value :=
  match index.lookup key with
  | some _ => results.getLastD .null
  | none => .mapping [(.text key, if deep then new else old)]

mutual

/-- A value with its call nodes replaced by results, one for each in their order. -/
def fill (index : TagIndex) (deep : Bool) : Value → List Value → Value
  | .mapping [(.text key, .list xs)], results =>
    let inner := results.take (callNodes index deep (.list xs)).length
    fillEntry index deep key (.list xs) (.list (fillAll index deep xs inner)) results
  | .mapping [(.text key, .tuple xs)], results =>
    let inner := results.take (callNodes index deep (.tuple xs)).length
    fillEntry index deep key (.tuple xs) (.tuple (fillAll index deep xs inner)) results
  | .mapping [(.text key, v)], results =>
    let inner := results.take (callNodes index deep v).length
    fillEntry index deep key v (fill index deep v inner) results
  | .mapping es, results =>
    .mapping (if deep then fillEntries index deep es results else es)
  | .list xs, results => .list (if deep then fillAll index deep xs results else xs)
  | .tuple xs, results => .tuple (if deep then fillAll index deep xs results else xs)
  | v, _ => v
termination_by structural v => v

/-- The items of a list with their call nodes replaced. -/
def fillAll (index : TagIndex) (deep : Bool) : List Value → List Value → List Value
  | [], _ => []
  | x :: xs, results =>
    let count := (callNodes index deep x).length
    fill index deep x (results.take count) :: fillAll index deep xs (results.drop count)
termination_by structural xs => xs

/-- The entries of a mapping with the call nodes of their values replaced. -/
def fillEntries (index : TagIndex) (deep : Bool) :
    List (Value × Value) → List Value → List (Value × Value)
  | [], _ => []
  | (k, x) :: es, results =>
    let count := (callNodes index deep x).length
    (k, fill index deep x (results.take count)) :: fillEntries index deep es (results.drop count)
termination_by structural es => es

end

variable {index : TagIndex} {deep : Bool} {name : String} {v source : Value}

/-- A call node is a mapping with one entry whose key is a tag. -/
theorem callNode?_eq_some :
    callNode? index v = some (name, source) ↔
      ∃ key, v = .mapping [(.text key, source)] ∧ index.lookup key = some name := by
  unfold callNode?
  split
  · rename_i key arguments
    cases found : index.lookup key <;> grind
  · rename_i none
    simp only [reduceCtorEq, false_iff, not_exists, not_and]
    intro key same
    exact absurd same (none key source)

/-- Containers other than mappings are no call nodes. -/
@[simp]
theorem callNode?_list (xs : List Value) : callNode? index (.list xs) = none := rfl

@[simp]
theorem callNode?_tuple (xs : List Value) : callNode? index (.tuple xs) = none := rfl

/-- The call nodes of a call node are those of its arguments and then itself. -/
theorem callNodes_of_callNode (call : callNode? index v = some (name, source)) :
    callNodes index deep v =
      callNodesAll index deep (normalizeArguments source) ++ [⟨name, source⟩] := by
  obtain ⟨key, rfl, found⟩ := callNode?_eq_some.mp call
  cases source <;>
    simp [callNodes, entryCallNodes, found, normalizeArguments, callNodesAll]

/-- The last result is the one of the call node itself. -/
theorem fill_of_callNode (call : callNode? index v = some (name, source))
    (results : List Value) : fill index deep v results = results.getLastD .null := by
  obtain ⟨key, rfl, found⟩ := callNode?_eq_some.mp call
  cases source <;> simp [fill, fillEntry, found]

/-- A mapping has one entry with a text as its key, or it is another one. -/
theorem entries_cases (es : Entries) :
    (∃ key v, es = [(.text key, v)]) ∨ ∀ key v, es ≠ [(.text key, v)] := by
  by_cases entry : ∃ key v, es = [(.text key, v)]
  · exact .inl entry
  · exact .inr fun key v same => entry ⟨key, v, same⟩

/-- A mapping that is no call node holds the call nodes of its values. -/
theorem callNodes_mapping {es : Entries} (literal : callNode? index (.mapping es) = none) :
    callNodes index true (.mapping es) = callNodesOfEntries index true es := by
  rcases entries_cases es with ⟨key, v, rfl⟩ | other
  · have unknown : index.lookup key = none := by simpa [callNode?] using literal
    cases v <;> simp [callNodes, entryCallNodes, unknown, callNodesOfEntries]
  · simp [callNodes, other]

/-- A mapping that is no call node is filled entry by entry. -/
theorem fill_mapping {es : Entries} (literal : callNode? index (.mapping es) = none)
    (results : List Value) :
    fill index true (.mapping es) results = .mapping (fillEntries index true es results) := by
  rcases entries_cases es with ⟨key, v, rfl⟩ | other
  · have unknown : index.lookup key = none := by simpa [callNode?] using literal
    cases v <;> simp [fill, fillEntry, unknown, fillEntries]
  · simp [fill, other]

/-- Whether a value is a list, a tuple or a mapping. -/
def isContainer : Value → Bool
  | .list _ => true
  | .tuple _ => true
  | .mapping _ => true
  | _ => false

/-- A value without parts has no call nodes. -/
theorem callNodes_leaf (leaf : isContainer v = false) : callNodes index deep v = [] := by
  cases v <;> first | rfl | contradiction

theorem fill_leaf (leaf : isContainer v = false) (results : List Value) :
    fill index deep v results = v := by
  cases v <;> first | rfl | contradiction

/-- A value that is no call node has none at its surface. -/
theorem callNodes_shallow (literal : callNode? index v = none) :
    callNodes index false v = [] := by
  cases v with
  | mapping es =>
    rcases entries_cases es with ⟨key, v, rfl⟩ | other
    · have unknown : index.lookup key = none := by simpa [callNode?] using literal
      cases v <;> simp [callNodes, entryCallNodes, unknown]
    · simp [callNodes, other]
  | _ => rfl

theorem fill_shallow (literal : callNode? index v = none) (results : List Value) :
    fill index false v results = v := by
  cases v with
  | mapping es =>
    rcases entries_cases es with ⟨key, v, rfl⟩ | other
    · have unknown : index.lookup key = none := by simpa [callNode?] using literal
      cases v <;> simp [fill, fillEntry, unknown]
    · simp [fill, other]
  | _ => rfl

/-! ## Evaluation by cases -/

variable (e : Engine)

/-- A call node is evaluated by evaluating its arguments and invoking its function with them. -/
theorem evaluate_of_callNode (call : callNode? e.index v = some (name, source)) :
    e.evaluate deep v =
      (e.evaluateAll deep (normalizeArguments source)).andThen (e.invoke name) := by
  obtain ⟨key, rfl, found⟩ := callNode?_eq_some.mp call
  cases source <;>
    simp [evaluate, entryNode, found, normalizeArguments, evaluateAll]

/-- A mapping that is no call node is evaluated entry by entry. -/
theorem evaluate_mapping {es : Entries} (literal : callNode? e.index (.mapping es) = none) :
    e.evaluate true (.mapping es) =
      (e.evaluateEntries true es).andThen fun fs => .done (.mapping fs) := by
  rcases entries_cases es with ⟨key, v, rfl⟩ | other
  · have unknown : e.index.lookup key = none := by simpa [callNode?] using literal
    cases v <;> simp [evaluate, entryNode, unknown, evaluateEntries, Run.andThen_assoc]
  · simp [evaluate, other]

/-- A value without parts stays as it is. -/
theorem evaluate_leaf (leaf : isContainer v = false) : e.evaluate deep v = .done v := by
  cases v <;> first | rfl | contradiction

/-- An engine that looks at one node only leaves it alone unless it is a call node. -/
theorem evaluate_shallow (literal : callNode? e.index v = none) :
    e.evaluate false v = .done v := by
  cases v with
  | mapping es =>
    rcases entries_cases es with ⟨key, v, rfl⟩ | other
    · have unknown : e.index.lookup key = none := by simpa [callNode?] using literal
      cases v <;> simp [evaluate, entryNode, unknown]
    · simp [evaluate, other]
  | _ => rfl

/-- Looking at values that are no call nodes leaves them alone. -/
theorem evaluateAll_shallow {xs : List Value} (literals : ∀ x ∈ xs, callNode? e.index x = none) :
    e.evaluateAll false xs = .done xs := by
  induction xs with
  | nil => rfl
  | cons x xs ih =>
    rw [evaluateAll, evaluate_shallow e (literals x List.mem_cons_self), Run.done_andThen,
      ih fun y inside => literals y (List.mem_cons_of_mem x inside), Run.done_andThen]

/-! ## Induction over documents -/

/-- Every argument of a call node is smaller than the node. -/
theorem sizeOf_argument_lt (call : callNode? index v = some (name, source)) {a : Value}
    (argument : a ∈ normalizeArguments source) : sizeOf a < sizeOf v := by
  obtain ⟨key, rfl, -⟩ := callNode?_eq_some.mp call
  have inner : sizeOf a ≤ sizeOf source := by
    unfold normalizeArguments at argument
    split at argument
    · have := List.sizeOf_lt_of_mem argument
      simp
      omega
    · have := List.sizeOf_lt_of_mem argument
      simp
      omega
    · exact Nat.le_of_eq (by rw [List.mem_singleton.mp argument])
  simp
  omega

/-- Induction over a document: a call node by its arguments, another container by its parts. -/
theorem documentInduction (index : TagIndex) {motive : Value → Prop}
    (call : ∀ v name source, callNode? index v = some (name, source) →
      (∀ a ∈ normalizeArguments source, motive a) → motive v)
    (list : ∀ xs, (∀ x ∈ xs, motive x) → motive (.list xs))
    (tuple : ∀ xs, (∀ x ∈ xs, motive x) → motive (.tuple xs))
    (mapping : ∀ es, callNode? index (.mapping es) = none → (∀ entry ∈ es, motive entry.2) →
      motive (.mapping es))
    (leaf : ∀ v, isContainer v = false → motive v) (v : Value) : motive v := by
  induction h : sizeOf v using Nat.strongRecOn generalizing v with
  | ind size ih =>
    subst h
    cases found : callNode? index v with
    | some node =>
      exact call v node.1 node.2 found fun a argument =>
        ih _ (sizeOf_argument_lt found argument) a rfl
    | none =>
      cases v with
      | list xs =>
        refine list xs fun x inside => ih _ ?_ x rfl
        have := List.sizeOf_lt_of_mem inside
        simp
        omega
      | tuple xs =>
        refine tuple xs fun x inside => ih _ ?_ x rfl
        have := List.sizeOf_lt_of_mem inside
        simp
        omega
      | mapping es =>
        refine mapping es found fun entry inside => ih _ ?_ entry.2 rfl
        have := List.sizeOf_lt_of_mem inside
        obtain ⟨k, x⟩ := entry
        simp at this ⊢
        omega
      | _ => exact leaf _ rfl

end LiveDoc.Engine
