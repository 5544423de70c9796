import LiveDoc.Proofs.CallNodes

/-!
# Documents as straight-line programs

Evaluating a document executes its call nodes one after the other. The call nodes within the
arguments of a node come directly before it, so its arguments are made from the latest results. How
they are made is a parameter: an engine that goes through the document itself fills them in, and an
engine that a reader drives looks at each of them again.
-/

namespace LiveDoc.Engine

/-- How the arguments of a call node are made from the results of the call nodes within them. -/
abbrev Gathering := CallNode → List Value → Run (List Value)

/-- The number of call nodes within the arguments of a call node. -/
def CallNode.span (index : TagIndex) (deep : Bool) (node : CallNode) : Nat :=
  (callNodesAll index deep (normalizeArguments node.source)).length

/-- The results of the call nodes within the arguments of a call node: the latest ones. -/
def CallNode.inner (index : TagIndex) (deep : Bool) (node : CallNode) (results : List Value) :
    List Value :=
  results.drop (results.length - node.span index deep)

/-- The arguments of a call node with the call nodes in them replaced by results. -/
def CallNode.resolved (index : TagIndex) (deep : Bool) (node : CallNode) (inner : List Value) :
    List Value :=
  fillAll index deep (normalizeArguments node.source) inner

/-- Executes call nodes one after the other, given the results of those before them. -/
def execute (e : Engine) (deep : Bool) (gather : Gathering) :
    List CallNode → List Value → Run (List Value)
  | [], _ => .done []
  | node :: nodes, prior =>
    (gather node (node.inner e.index deep prior)).andThen fun arguments =>
      (e.invoke node.name arguments).andThen fun v =>
        (execute e deep gather nodes (prior ++ [v])).andThen fun vs => .done (v :: vs)

/-- Arguments that are filled in with the results of the call nodes within them. -/
def resolving (e : Engine) (deep : Bool) : Gathering :=
  fun node inner => .done (node.resolved e.index deep inner)

variable (e : Engine) {deep : Bool} {gather : Gathering}

/-- Executing call nodes yields one result for each. -/
theorem execute_length {nodes : List CallNode} {prior results : List Value}
    (yields : (e.execute deep gather nodes prior).Yields results) :
    results.length = nodes.length := by
  induction nodes generalizing prior results with
  | nil =>
    rw [← Run.yields_done.mp yields]
    rfl
  | cons node nodes ih =>
    obtain ⟨arguments, -, yields⟩ := Run.yields_andThen yields
    obtain ⟨v, -, yields⟩ := Run.yields_andThen yields
    obtain ⟨vs, rest, yields⟩ := Run.yields_andThen yields
    rw [← Run.yields_done.mp yields, List.length_cons, ih rest, List.length_cons]

/-- Going through values yields one for each. -/
theorem evaluateAll_length {xs ys : List Value} (yields : (e.evaluateAll deep xs).Yields ys) :
    ys.length = xs.length := by
  induction xs generalizing ys with
  | nil => rw [← Run.yields_done.mp yields]
  | cons x xs ih =>
    obtain ⟨y, -, yields⟩ := Run.yields_andThen yields
    obtain ⟨zs, rest, yields⟩ := Run.yields_andThen yields
    rw [← Run.yields_done.mp yields, List.length_cons, ih rest, List.length_cons]

/-- Call nodes in two parts are executed one part after the other. -/
theorem execute_append (first second : List CallNode) (prior : List Value) :
    e.execute deep gather (first ++ second) prior =
      (e.execute deep gather first prior).andThen fun results =>
        (e.execute deep gather second (prior ++ results)).andThen fun later =>
          .done (results ++ later) := by
  induction first generalizing prior with
  | nil => simp [execute]
  | cons node first ih => simp [execute, ih, Run.andThen_assoc]

/-- The latest results are those that were added last. -/
theorem CallNode.inner_append {index : TagIndex} {node : CallNode} (prior : List Value)
    {results : List Value} (fits : results.length = node.span index deep) :
    node.inner index deep (prior ++ results) = results := by
  simp [CallNode.inner, ← fits]

/-- An item executes its call nodes, and then the items after it execute theirs. -/
theorem execute_item {x : Value} {xs : List Value} {first : Run Value} {rest : Run (List Value)}
    (item : ∀ prior, first =
      (e.execute deep gather (callNodes e.index deep x) prior).andThen fun results =>
        .done (fill e.index deep x results))
    (items : ∀ prior, rest =
      (e.execute deep gather (callNodesAll e.index deep xs) prior).andThen fun results =>
        .done (fillAll e.index deep xs results)) (prior : List Value) :
    (first.andThen fun y => rest.andThen fun ys => .done (y :: ys)) =
      (e.execute deep gather (callNodesAll e.index deep (x :: xs)) prior).andThen fun results =>
        .done (fillAll e.index deep (x :: xs) results) := by
  rw [item prior, callNodesAll, execute_append]
  simp only [Run.andThen_assoc, Run.done_andThen]
  refine Run.andThen_congr fun results yields => ?_
  rw [items (prior ++ results)]
  simp [Run.andThen_assoc, fillAll, ← execute_length e yields]

/-- The value of an entry executes its call nodes, and then the entries after it execute theirs. -/
theorem execute_entry {k x : Value} {es : Entries} {first : Run Value} {rest : Run Entries}
    (entry : ∀ prior, first =
      (e.execute deep gather (callNodes e.index deep x) prior).andThen fun results =>
        .done (fill e.index deep x results))
    (entries : ∀ prior, rest =
      (e.execute deep gather (callNodesOfEntries e.index deep es) prior).andThen fun results =>
        .done (fillEntries e.index deep es results)) (prior : List Value) :
    (first.andThen fun y => rest.andThen fun fs => .done ((k, y) :: fs)) =
      (e.execute deep gather (callNodesOfEntries e.index deep ((k, x) :: es)) prior).andThen
        fun results => .done (fillEntries e.index deep ((k, x) :: es) results) := by
  rw [entry prior, callNodesOfEntries, execute_append]
  simp only [Run.andThen_assoc, Run.done_andThen]
  refine Run.andThen_congr fun results yields => ?_
  rw [entries (prior ++ results)]
  simp [Run.andThen_assoc, fillEntries, ← execute_length e yields]

/-- Going through a list is executing its call nodes if that holds of each of its items. -/
theorem evaluateAll_eq_execute {xs : List Value}
    (items : ∀ x ∈ xs, ∀ prior, e.evaluate deep x =
      (e.execute deep gather (callNodes e.index deep x) prior).andThen fun results =>
        .done (fill e.index deep x results)) (prior : List Value) :
    e.evaluateAll deep xs =
      (e.execute deep gather (callNodesAll e.index deep xs) prior).andThen fun results =>
        .done (fillAll e.index deep xs results) := by
  induction xs generalizing prior with
  | nil => simp [evaluateAll, callNodesAll, execute, fillAll]
  | cons x xs ih =>
    exact execute_item e (items x List.mem_cons_self)
      (ih fun y inside => items y (List.mem_cons_of_mem x inside)) prior

/-- The same for the entries of a mapping. -/
theorem evaluateEntries_eq_execute {es : Entries}
    (entries : ∀ entry ∈ es, ∀ prior, e.evaluate deep entry.2 =
      (e.execute deep gather (callNodes e.index deep entry.2) prior).andThen fun results =>
        .done (fill e.index deep entry.2 results)) (prior : List Value) :
    e.evaluateEntries deep es =
      (e.execute deep gather (callNodesOfEntries e.index deep es) prior).andThen fun results =>
        .done (fillEntries e.index deep es results) := by
  induction es generalizing prior with
  | nil => simp [evaluateEntries, callNodesOfEntries, execute, fillEntries]
  | cons entry es ih =>
    exact execute_entry e (entries entry List.mem_cons_self)
      (ih fun other inside => entries other (List.mem_cons_of_mem _ inside)) prior

/-- A call node is executed after the call nodes within its arguments, whose results are its
latest. -/
theorem execute_callNode {name : String} {source : Value} (prior : List Value) :
    e.execute deep gather
        (callNodesAll e.index deep (normalizeArguments source) ++ [⟨name, source⟩]) prior =
      (e.execute deep gather (callNodesAll e.index deep (normalizeArguments source)) prior).andThen
        fun inner => (gather ⟨name, source⟩ inner).andThen fun arguments =>
          (e.invoke name arguments).andThen fun v => .done (inner ++ [v]) := by
  rw [execute_append]
  refine Run.andThen_congr fun inner yields => ?_
  have latest : CallNode.inner e.index deep ⟨name, source⟩ (prior ++ inner) = inner :=
    CallNode.inner_append prior (execute_length e yields)
  simp [execute, latest, Run.andThen_assoc]

/-- An engine that looks at what is no call node executes nothing. -/
theorem evaluate_shallow_eq_execute {v : Value} (literal : callNode? e.index v = none)
    (prior : List Value) :
    e.evaluate false v =
      (e.execute false gather (callNodes e.index false v) prior).andThen fun results =>
        .done (fill e.index false v results) := by
  simp [evaluate_shallow e literal, callNodes_shallow literal, fill_shallow literal, execute]

/-- An engine that goes through a value, or looks at its surface, executes the call nodes that it
finds and fills in their results. -/
theorem evaluate_eq_execute (v : Value) (prior : List Value) :
    e.evaluate deep v =
      (e.execute deep (e.resolving deep) (callNodes e.index deep v) prior).andThen fun results =>
        .done (fill e.index deep v results) := by
  -- earlier results are passed over by all call nodes of `v`, so the statement is for any `prior`
  induction v using documentInduction e.index generalizing prior with
  | call v name source call items =>
    rw [evaluate_of_callNode e call, evaluateAll_eq_execute e items prior,
      callNodes_of_callNode call, execute_callNode]
    simp [Run.andThen_assoc, resolving, CallNode.resolved, fill_of_callNode call]
  | list xs items =>
    cases deep with
    | false => exact evaluate_shallow_eq_execute e (callNode?_list xs) prior
    | true =>
      simp only [evaluate, callNodes, fill, if_true]
      rw [evaluateAll_eq_execute e items prior]
      simp [Run.andThen_assoc]
  | tuple xs items =>
    cases deep with
    | false => exact evaluate_shallow_eq_execute e (callNode?_tuple xs) prior
    | true =>
      simp only [evaluate, callNodes, fill, if_true]
      rw [evaluateAll_eq_execute e items prior]
      simp [Run.andThen_assoc]
  | mapping es literal entries =>
    cases deep with
    | false => exact evaluate_shallow_eq_execute e literal prior
    | true =>
      rw [evaluate_mapping e literal, evaluateEntries_eq_execute e entries prior,
        callNodes_mapping literal]
      simp [Run.andThen_assoc, fill_mapping literal]
  | leaf v leaf => simp [evaluate_leaf e leaf, callNodes_leaf leaf, fill_leaf leaf, execute]

end LiveDoc.Engine
