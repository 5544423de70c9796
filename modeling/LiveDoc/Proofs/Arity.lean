import LiveDoc.Proofs.Inspection

/-!
# Arity

The document tells how many arguments a call node stands for: the items of a list, or one. An engine
that goes through the document itself passes exactly as many. An engine that a reader drives counts
them when they are resolved, so that a call node that stands for all arguments passes the items of
its result.
-/

namespace LiveDoc.Engine

variable {e : Engine} {call : Caller} {tracing : Bool} {c : Config} {document v data : Value}
  {past start : List Event}

/-- How many arguments the value of a call node holds in the document. -/
def CallNode.arity (node : CallNode) : Nat :=
  match node.source with
  | .list xs => xs.length
  | .tuple xs => xs.length
  | _ => 1

theorem CallNode.arity_eq (node : CallNode) :
    node.arity = (normalizeArguments node.source).length := by
  obtain ⟨name, source⟩ := node
  cases source <;> rfl

/-- A visit that looks at the arguments again passes as many as the document has for the node exactly
if no call node that stands for all of them came to a sequence of another length than one. -/
theorem Visit.inspecting_arity {visit : Visit} {own : Invocation}
    (fits : visit.inner.length ≤ visit.node.span e.index true)
    (made : visit.own? e e.inspecting = some own) :
    own.name = visit.node.name ∧ (own.arguments.length = visit.node.arity ↔
      (callNode? e.index visit.node.source ≠ none →
        (normalizeArguments (visit.inner.getLastD .null)).length = 1)) := by
  cases gathered : (visit.gathered e.inspecting).outcome with
  | error f =>
    rw [Visit.own?, gathered] at made
    contradiction
  | ok arguments =>
    obtain ⟨again, same, -, named, given⟩ := visit.course_calls (e := e) gathered
    obtain rfl := Option.some.inj (made.symm.trans same)
    have count : arguments.length = (visit.offered e.index).length :=
      evaluateAll_length e ⟨visit.past, gathered⟩
    refine ⟨named, ?_⟩
    rw [given, count, CallNode.arity_eq]
    cases whole : callNode? e.index visit.node.source with
    | none =>
      have filled := normalizeArguments_fill fits fun call => absurd whole call
      simp [Visit.offered, filled]
    | some node =>
      have single : normalizeArguments visit.node.source = [visit.node.source] :=
        normalizeArguments_of_callNode (whole ▸ Option.some_ne_none node)
      simp [Visit.offered, fill_of_callNode whole, single]

/-- How many arguments functions are passed, the data apart. An engine that goes through the document
itself passes every call the number of arguments that the document has for it. An engine that a
reader drives does so exactly for those calls whose arguments are not the items of a result, that is,
unless a call node stands for all arguments and came to a sequence of another length than one. -/
theorem invocation_arity (presents : Presents c.format document v)
    (starts : Starts call tracing c document data past e start) :
    let nodes := callNodes e.index true v
    let calls := ((transformWith call tracing c document data).after past).calls
    let visits := e.visits true e.inspecting nodes [] start
    (Mode.select document c = .selfDriven →
      ∀ before own rest, calls = before ++ own :: rest →
        ∃ node, nodes[before.length]? = some node ∧ own.name = node.name ∧
          own.arguments.length = node.arity) ∧
    (Mode.select document c = .driverFed →
      calls = (visits.flatMap fun visit => (visit.course e e.inspecting).calls) ∧
      (∃ rest, nodes = visits.map (·.node) ++ rest) ∧
      ∀ visit ∈ visits, ∀ own, visit.own? e e.inspecting = some own →
        own.name = visit.node.name ∧ (own.arguments.length = visit.node.arity ↔
          (callNode? e.index visit.node.source ≠ none →
            (normalizeArguments (visit.inner.getLastD .null)).length = 1))) := by
  intro nodes calls visits
  have fits : Presents e.config.format document v := by rwa [starts.config]
  obtain ⟨t, rfl, distinct, fed, own⟩ := run_of_presents e fits
  obtain ⟨same, -⟩ := starts.transform
  constructor
  · intro mode before invocation rest split
    rw [mode, own, evaluate_eq_execute e t.toValue [], Run.after_andThen_done] at same
    obtain ⟨node, place, named, given, -⟩ :=
      (e.execute_account true nodes [] start).made before invocation rest (same.symm.trans split)
    refine ⟨node, place, named, ?_⟩
    rw [given, CallNode.resolved, fillAll_length, CallNode.arity_eq]
  · intro mode
    rw [mode, fed, resolve_eq_execute e t distinct [], Run.after_andThen_done] at same
    exact ⟨same.trans execute_calls, visits_nodes, fun visit inside made own =>
      Visit.inspecting_arity (visits_inner_length_le visit inside) own⟩

/-- Counting what a function returns that returns the list of its arguments, of which it has none. -/
def counted : Value := Sample.calling "count" (Sample.calling "pack" (.list []))

theorem counted_isJson : counted.IsJson := by
  simp [counted, Sample.calling, Value.IsJson, Value.AreJson, Value.HoldJson]

/-- Counting what a function returns that returns nothing. -/
def emptied : Value := Sample.calling "count" (Sample.calling "nothing" (.list []))

theorem emptied_isJson : emptied.IsJson := by
  simp [emptied, Sample.calling, Value.IsJson, Value.AreJson, Value.HoldJson]

/-- In this document the value of the outer call is a call node, so that it stands for one argument;
a run that a reader drives passes none. -/
theorem counted_passes_items :
    counted.IsJson ∧ ∃ e start,
      Starts Sample.call false (Sample.config.withMode (.bool true)) counted .null [] e start ∧
      (callNodes e.index true counted).map (fun node => (node.name, node.arity)) =
        [("pack", 0), ("count", 1)] ∧
      ((transformWith Sample.call false (Sample.config.withMode (.bool true)) counted .null).after
        []).calls.map (fun own => (own.name, own.arguments.length)) = [("pack", 0), ("count", 0)] := by
  obtain ⟨e, start, starts, nodes⟩ := exists_starts
    (by decide +kernel : startsAt Sample.call false (Sample.config.withMode (.bool true)) counted
      .null [] (fun e _ => (callNodes e.index true counted).map (fun node => (node.name, node.arity)) ==
        [("pack", 0), ("count", 1)]) = true)
  exact ⟨counted_isJson, e, start, starts, beq_iff_eq.mp nodes, by decide +kernel⟩

/-- An engine that goes through this document itself passes one argument, and so does one that a
reader drives where the inner function returns nothing instead of a list. -/
theorem counted_arity :
    (∃ e start,
      Starts Sample.call false (Sample.config.withMode (.bool false)) counted .null [] e start ∧
      ∀ before own rest, ((transformWith Sample.call false (Sample.config.withMode (.bool false))
          counted .null).after []).calls = before ++ own :: rest →
        ∃ node, (callNodes e.index true counted)[before.length]? = some node ∧
          own.name = node.name ∧ own.arguments.length = node.arity) ∧
    ∃ e start,
      Starts Sample.call false (Sample.config.withMode (.bool true)) emptied .null [] e start ∧
      ∀ visit ∈ e.visits true e.inspecting (callNodes e.index true emptied) [] start,
        ∀ own, visit.own? e e.inspecting = some own → own.arguments.length = visit.node.arity := by
  obtain ⟨e, start, starts, -⟩ := exists_starts
    (by decide +kernel : startsAt Sample.call false (Sample.config.withMode (.bool false)) counted
      .null [] (fun _ _ => true) = true)
  obtain ⟨f, later, goes, single⟩ := exists_starts
    (by decide +kernel : startsAt Sample.call false (Sample.config.withMode (.bool true)) emptied
      .null [] (fun e start => decide
        (∀ visit ∈ e.visits true e.inspecting (callNodes e.index true emptied) [] start,
          (normalizeArguments (visit.inner.getLastD .null)).length = 1)) = true)
  refine ⟨⟨e, start, starts, ?_⟩, f, later, goes, fun visit inside own made => ?_⟩
  · exact (invocation_arity (.structured counted_isJson rfl) starts).1 rfl
  · obtain ⟨-, -, each⟩ := (invocation_arity (.structured emptied_isJson rfl) goes).2 rfl
    exact (each visit inside own made).2.mpr fun _ => of_decide_eq_true single visit inside

end LiveDoc.Engine
