import LiveDoc.Proofs.DriverFed
import LiveDoc.Proofs.Visits

/-!
# The two ways of gathering arguments

An engine that goes through a document takes the arguments of a call node apart before they are
evaluated, and an engine that a reader drives takes them apart afterwards and looks at each of them
once more. The two agree wherever the results within the arguments settle: where no call that stands
for an argument comes to a call node, and no call that stands for all arguments to a list or a tuple.
-/

namespace LiveDoc.Engine

/-- Whether a value is a list or a tuple, which stands for several arguments. -/
def isSequence : Value → Bool
  | .list _ => true
  | .tuple _ => true
  | _ => false

variable {index : TagIndex} {v source : Value}

/-- A value that is no sequence is an argument by itself. -/
theorem normalizeArguments_of_not_sequence (single : isSequence v = false) :
    normalizeArguments v = [v] := by
  cases v <;> first | rfl | contradiction

/-- A call node is an argument by itself. -/
theorem normalizeArguments_of_callNode {a : Value} (found : callNode? index a ≠ none) :
    normalizeArguments a = [a] := by
  cases a <;> first | rfl | exact absurd rfl found

/-- Filling in results keeps the number of items. -/
@[simp]
theorem fillAll_length (deep : Bool) (xs results : List Value) :
    (fillAll index deep xs results).length = xs.length := by
  induction xs generalizing results with
  | nil => rfl
  | cons x xs ih => simp [fillAll, ih]

/-- What is filled in for values is filled in with some of the results. -/
theorem mem_fillAll {xs results : List Value} {a : Value}
    (inside : a ∈ fillAll index true xs results) :
    ∃ x part, part ⊆ results ∧ a = fill index true x part := by
  induction xs generalizing results with
  | nil => contradiction
  | cons x xs ih =>
    rw [fillAll] at inside
    rcases List.mem_cons.mp inside with rfl | inside
    · exact ⟨x, _, List.take_subset _ results, rfl⟩
    · obtain ⟨y, part, some, same⟩ := ih inside
      exact ⟨y, part, List.Subset.trans some (List.drop_subset _ results), same⟩

/-- Filling in results turns nothing into a call node that was none. -/
theorem callNode?_fill (literal : callNode? index v = none) (results : List Value) :
    callNode? index (fill index true v results) = none := by
  cases v with
  | mapping es =>
    rw [fill_mapping literal]
    exact callNode?_of_keys literal (fillEntries_keys true es results)
  | list xs => rfl
  | tuple xs => rfl
  | _ => exact literal

/-- Nor does it turn anything into a sequence. -/
theorem isSequence_fill (literal : callNode? index v = none) (single : isSequence v = false)
    (results : List Value) : isSequence (fill index true v results) = false := by
  cases v with
  | mapping es =>
    rw [fill_mapping literal]
    rfl
  | _ => first | rfl | contradiction

/-- Taking arguments apart before or after they are filled in comes to the same, unless a call node
stands for all of them and came to a sequence. -/
theorem normalizeArguments_fill {inner : List Value}
    (fits : inner.length ≤ (callNodesAll index true (normalizeArguments source)).length)
    (whole : callNode? index source ≠ none → isSequence (fill index true source inner) = false) :
    normalizeArguments (fill index true source inner) =
      fillAll index true (normalizeArguments source) inner := by
  cases several : isSequence source with
  | true => cases source <;> first | rfl | contradiction
  | false =>
    have single : isSequence (fill index true source inner) = false := by
      cases literal : callNode? index source with
      | none => exact isSequence_fill literal several inner
      | some node => exact whole (by simp [literal])
    rw [callNodesAll_normalizeArguments] at fits
    rw [normalizeArguments_of_not_sequence single, normalizeArguments_of_not_sequence several]
    simp [fillAll, List.take_of_length_le fits]

/-- What is filled in for values are call nodes only where call nodes stood. -/
theorem callNode?_fillAll {xs results : List Value}
    (settled : ∀ pair ∈ xs.zip (fillAll index true xs results),
      callNode? index pair.1 ≠ none → callNode? index pair.2 = none) :
    ∀ x ∈ fillAll index true xs results, callNode? index x = none := by
  induction xs generalizing results with
  | nil => exact fun _ inside => nomatch inside
  | cons x xs ih =>
    rw [fillAll, List.zip_cons_cons] at settled
    rw [fillAll]
    refine List.forall_mem_cons.mpr ⟨?_, ih fun pair inside =>
      settled pair (List.mem_cons_of_mem _ inside)⟩
    cases literal : callNode? index x with
    | none => exact callNode?_fill literal _
    | some node => exact settled _ List.mem_cons_self (by simp [literal])

namespace Visit

/-- The arguments that a reader has ready for a visit, before they are looked at once more. -/
def offered (index : TagIndex) (visit : Visit) : List Value :=
  normalizeArguments (fill index true visit.node.source visit.inner)

/-- Whether the results within the arguments of a visited node settle: a call node that is one of the
arguments did not come to a call node, and one that stands for all of them not to a sequence. -/
structure Settled (index : TagIndex) (visit : Visit) : Prop where
  arguments : ∀ pair ∈ (normalizeArguments visit.node.source).zip
      (visit.node.resolved index true visit.inner),
    callNode? index pair.1 ≠ none → callNode? index pair.2 = none
  whole : callNode? index visit.node.source ≠ none →
    isSequence (fill index true visit.node.source visit.inner) = false

instance (index : TagIndex) (visit : Visit) : Decidable (visit.Settled index) :=
  decidable_of_iff
    ((∀ pair ∈ (normalizeArguments visit.node.source).zip
        (visit.node.resolved index true visit.inner),
      callNode? index pair.1 ≠ none → callNode? index pair.2 = none) ∧
    (callNode? index visit.node.source ≠ none →
      isSequence (fill index true visit.node.source visit.inner) = false))
    ⟨fun both => ⟨both.1, both.2⟩, fun settled => ⟨settled.arguments, settled.whole⟩⟩

end Visit

/-- Where the results settle, looking at the arguments once more finds them resolved. -/
theorem inspecting_eq_resolving (e : Engine) {visit : Visit} (settled : visit.Settled e.index)
    (fits : visit.inner.length ≤ visit.node.span e.index true) :
    e.inspecting visit.node visit.inner = e.resolving true visit.node visit.inner := by
  rw [inspecting, normalizeArguments_fill fits settled.whole]
  exact evaluateAll_shallow e (callNode?_fillAll settled.arguments)

/-- A reader and the engine itself take a document through the same course if the results settle at
every call node that the engine reaches by itself. -/
theorem resolve_eq_evaluate (e : Engine) {t : Json.Tree} (distinct : t.Distinct)
    {past : List Event}
    (settled : ∀ visit ∈ e.visits true (e.resolving true) (callNodes e.index true t.toValue) [] past,
      visit.Settled e.index) :
    (t.resolve e.revive).after past = (e.evaluate true t.toValue).after past := by
  have agree : ∀ visit ∈ e.visits true (e.resolving true) (callNodes e.index true t.toValue) [] past,
      e.resolving true visit.node visit.inner = e.inspecting visit.node visit.inner :=
    fun visit inside => (inspecting_eq_resolving e (settled visit inside)
      (visits_inner_length_le visit inside)).symm
  rw [resolve_eq_execute e t distinct [], evaluate_eq_execute e t.toValue [],
    Run.after_andThen_done, Run.after_andThen_done, execute_congr agree]

end LiveDoc.Engine
