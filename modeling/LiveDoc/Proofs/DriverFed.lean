import LiveDoc.Transform
import LiveDoc.Proofs.Execution
import LiveDoc.Proofs.JsonDocument

/-!
# Documents that a reader drives

A reader that revives every object as soon as it is complete executes the call nodes of the document
in the same order as an engine that goes through the document itself. The two differ in how the
arguments of a call node are made: the reader has put the results in their place already, so that
the value of a call decides how many arguments it stands for, and every argument is looked at once
more.
-/

namespace LiveDoc.Engine

open Json (Tree)

/-- Arguments that are taken from the finished value of a call node and looked at once more. -/
def inspecting (e : Engine) : Gathering := fun node inner =>
  e.evaluateAll false (normalizeArguments (fill e.index true node.source inner))

variable {index : TagIndex}

/-- Looking for call nodes in the arguments that a value holds, or in the value, is the same unless
the value is a call node that is left unsearched. -/
theorem callNodesAll_normalizeArguments (source : Value) :
    callNodesAll index true (normalizeArguments source) = callNodes index true source := by
  cases source <;> simp [normalizeArguments, callNodesAll, callNodes]

/-- Filling in results keeps the keys of a mapping. -/
theorem fillEntries_keys (deep : Bool) (es : Entries) (results : List Value) :
    (fillEntries index deep es results).map (·.1) = es.map (·.1) := by
  induction es generalizing results with
  | nil => rfl
  | cons entry es ih => simp [fillEntries, ih]

/-- Whether a mapping is a call node, only its keys tell. -/
theorem callNode?_of_keys {es fs : Entries} (literal : callNode? index (.mapping es) = none)
    (same : fs.map (·.1) = es.map (·.1)) : callNode? index (.mapping fs) = none := by
  rcases entries_cases fs with ⟨key, v, rfl⟩ | other
  · obtain ⟨entry, rfl, keyed⟩ := List.map_eq_singleton_iff.mp same.symm
    obtain ⟨k, old⟩ := entry
    obtain rfl : k = .text key := keyed
    simpa [callNode?] using literal
  · simp [callNode?, other]

variable (e : Engine)

/-- An object that a reader has completed is executed after everything in it. -/
theorem resolve_object_eq_execute {ms : List (String × Tree)}
    (distinct : Tree.DistinctMembers ms)
    (members : ∀ prior, Tree.resolveMembers e.revive ms =
      (e.execute true e.inspecting (callNodesOfEntries e.index true (Tree.toPairs ms)) prior).andThen
        fun results => .done (fillEntries e.index true (Tree.toPairs ms) results))
    (prior : List Value) :
    (Tree.object ms).resolve e.revive =
      (e.execute true e.inspecting (callNodes e.index true (Tree.object ms).toValue) prior).andThen
        fun results => .done (fill e.index true (Tree.object ms).toValue results) := by
  have separate := Tree.toPairs_separate distinct
  rw [Tree.toValue_object distinct, Tree.resolve, members prior]
  simp only [Run.andThen_assoc, Run.done_andThen]
  cases found : callNode? e.index (.mapping (Tree.toPairs ms)) with
  | none =>
    rw [callNodes_mapping found]
    refine Run.andThen_congr fun results _ => ?_
    have keys : (fillEntries e.index true (Tree.toPairs ms) results).map (·.1) =
        (Tree.toPairs ms).map (·.1) := fillEntries_keys true (Tree.toPairs ms) results
    rw [Entries.ofPairs_of_separate (Entries.separate_of_keys separate keys), revive,
      evaluate_shallow e (callNode?_of_keys found keys), fill_mapping found]
  | some node =>
    obtain ⟨name, source⟩ := node
    obtain ⟨key, single, known⟩ := callNode?_eq_some.mp found
    rw [callNodes_of_callNode found, execute_callNode, Value.mapping.inj single]
    simp only [callNodesOfEntries, List.append_nil, callNodesAll_normalizeArguments,
      Run.andThen_assoc, Run.done_andThen]
    refine Run.andThen_congr fun inner yields => ?_
    have count := execute_length e yields
    simp only [fillEntries, ← count, List.take_length]
    -- the key still names the function, but the value may have become a list or a call node
    have again : callNode? e.index (.mapping [(.text key, fill e.index true source inner)]) =
        some (name, fill e.index true source inner) := callNode?_eq_some.mpr ⟨key, rfl, known⟩
    rw [Entries.ofPairs_of_separate (List.pairwise_singleton _ _), revive,
      evaluate_of_callNode e again]
    simp [fill_of_callNode (single ▸ found), inspecting]

mutual

/-- A reader that revives the objects of a document executes its call nodes, looking at every
argument once more. -/
theorem resolve_eq_execute : ∀ (t : Tree), t.Distinct → ∀ prior : List Value,
    t.resolve e.revive =
      (e.execute true e.inspecting (callNodes e.index true t.toValue) prior).andThen
        fun results => .done (fill e.index true t.toValue results)
  | .array ts, distinct, prior => by
    simp [Tree.resolve, Tree.toValue, callNodes, fill, Run.andThen_assoc,
      resolveList_eq_execute ts distinct prior]
  | .object ms, distinct, prior =>
    resolve_object_eq_execute e distinct (resolveMembers_eq_execute ms distinct) prior
  | .null, _, _ => rfl
  | .bool _, _, _ => rfl
  | .int _, _, _ => rfl
  | .float _, _, _ => rfl
  | .text _, _, _ => rfl

/-- The same for a list of trees. -/
theorem resolveList_eq_execute : ∀ (ts : List Tree), Tree.DistinctAll ts → ∀ prior : List Value,
    Tree.resolveList e.revive ts =
      (e.execute true e.inspecting (callNodesAll e.index true (Tree.toValues ts)) prior).andThen
        fun results => .done (fillAll e.index true (Tree.toValues ts) results)
  | [], _, _ => rfl
  | t :: ts, distinct, prior =>
    execute_item e (resolve_eq_execute t distinct.1) (resolveList_eq_execute ts distinct.2) prior

/-- The same for the members of an object. -/
theorem resolveMembers_eq_execute : ∀ (ms : List (String × Tree)), Tree.DistinctMembers ms →
    ∀ prior : List Value, Tree.resolveMembers e.revive ms =
      (e.execute true e.inspecting (callNodesOfEntries e.index true (Tree.toPairs ms)) prior).andThen
        fun results => .done (fillEntries e.index true (Tree.toPairs ms) results)
  | [], _, _ => rfl
  | (_, t) :: ms, distinct, prior =>
    execute_entry e (resolve_eq_execute t distinct.2.1)
      (resolveMembers_eq_execute ms distinct.2.2) prior

end

end LiveDoc.Engine
