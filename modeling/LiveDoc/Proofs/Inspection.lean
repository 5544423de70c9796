import LiveDoc.Proofs.Modes

/-!
# What a reader-driven engine adds

An engine that a reader drives looks at the arguments of a call once more after they are resolved. So
it invokes a function for a result that has the shape of a call node. Its invocations are counted
here, with exactly these cases set apart from the ones that the document itself calls for.
-/

namespace LiveDoc.Engine

variable {e : Engine} {deep : Bool} {gather : Gathering} {index : TagIndex}

/-! ## Invocations of visits -/

/-- The invocation that a visit makes for its own node, if it comes to that. -/
def Visit.own? (e : Engine) (gather : Gathering) (visit : Visit) : Option Invocation :=
  match (visit.gathered gather).outcome with
  | .ok _ => (visit.course e gather).calls.getLast?
  | .error _ => none

/-- A visit that has gathered its arguments makes one more invocation, with these arguments. -/
theorem Visit.course_calls {visit : Visit} {arguments : List Value}
    (ended : (visit.gathered gather).outcome = .ok arguments) :
    ∃ own, visit.own? e gather = some own ∧
      (visit.course e gather).calls = (visit.gathered gather).calls ++ [own] ∧
      own.name = visit.node.name ∧ own.arguments = arguments := by
  obtain ⟨own, -, -, calls, name, given, -⟩ :=
    e.invoke_course visit.node.name arguments (visit.past ++ (visit.gathered gather).log)
  have course : (visit.course e gather).calls = (visit.gathered gather).calls ++ [own] := by
    unfold Visit.gathered at ended calls
    rw [Visit.course, Run.after_andThen_of_ok ended, Course.followedBy, calls]
    rfl
  exact ⟨own, by simp [Visit.own?, ended, course], course, name, given⟩

/-- A visit that ends well has gathered its arguments. -/
theorem Visit.gathered_of_ok {visit : Visit} {v : Value}
    (ended : (visit.course e gather).outcome = .ok v) :
    ∃ arguments, (visit.gathered gather).outcome = .ok arguments := by
  cases first : (visit.gathered gather).outcome with
  | ok arguments => exact ⟨arguments, rfl⟩
  | error f =>
    unfold Visit.gathered at first
    rw [Visit.course, Run.after_andThen_of_error first] at ended
    contradiction

/-- A visit that fills in its arguments makes one invocation. -/
theorem Visit.resolving_calls (visit : Visit) :
    (visit.course e (e.resolving deep)).calls.length = 1 := by
  have ended : (visit.gathered (e.resolving deep)).outcome =
      .ok (visit.node.resolved e.index deep visit.inner) := rfl
  obtain ⟨own, -, calls, -⟩ := visit.course_calls (e := e) ended
  rw [calls]
  rfl

/-- Executing call nodes with their arguments filled in makes as many invocations as there are call
nodes, if it ends well. -/
theorem execute_calls_length {nodes : List CallNode} {prior results : List Value}
    {past : List Event}
    (ended : ((e.execute deep (e.resolving deep) nodes prior).after past).outcome = .ok results) :
    ((e.execute deep (e.resolving deep) nodes prior).after past).calls.length = nodes.length := by
  have all := congrArg List.length (visits_of_ok ended).1
  rw [List.length_map] at all
  rw [execute_calls, List.length_flatMap, ← all]
  simp [Visit.resolving_calls]

/-- Going through values makes as many invocations as there are call nodes in them, if it ends well.
-/
theorem evaluateAll_calls_length {xs ys : List Value} {past : List Event}
    (ended : ((e.evaluateAll deep xs).after past).outcome = .ok ys) :
    ((e.evaluateAll deep xs).after past).calls.length = (callNodesAll e.index deep xs).length := by
  have equation : e.evaluateAll deep xs =
      (e.execute deep (e.resolving deep) (callNodesAll e.index deep xs) []).andThen fun results =>
        .done (fillAll e.index deep xs results) :=
    e.evaluateAll_eq_execute (fun x _ prior => e.evaluate_eq_execute x prior) []
  rw [equation, Run.after_andThen_done] at ended ⊢
  cases outcome : ((e.execute deep (e.resolving deep) (callNodesAll e.index deep xs) []).after
      past).outcome with
  | error f =>
    rw [outcome] at ended
    contradiction
  | ok results => exact execute_calls_length outcome

/-! ## Arguments that are looked at again -/

/-- The call nodes that a reader-driven engine finds among the arguments of a visit. -/
def Visit.again (index : TagIndex) (visit : Visit) : List CallNode :=
  callNodesAll index false (visit.offered index)

/-- Values are searched in vain exactly if none of them is a call node. -/
theorem callNodesAll_shallow {xs : List Value} :
    callNodesAll index false xs = [] ↔ ∀ x ∈ xs, callNode? index x = none := by
  induction xs with
  | nil => simp [callNodesAll]
  | cons x xs ih =>
    rw [callNodesAll, List.append_eq_nil_iff, ih, List.forall_mem_cons]
    refine and_congr_left fun _ => ?_
    cases found : callNode? index x with
    | none => simp [callNodes_shallow found]
    | some node => simp [callNodes_of_callNode found]

/-- The value that results are filled in for is one of them if it is a call node. -/
theorem mem_of_callNode?_fill {x : Value} {results : List Value}
    (found : callNode? index (fill index true x results) ≠ none) :
    fill index true x results ∈ results := by
  cases call : callNode? index x with
  | none => exact absurd (callNode?_fill call results) found
  | some node =>
    rw [fill_of_callNode call] at found ⊢
    cases results with
    | nil => exact absurd rfl found
    | cons r results =>
      rw [List.getLastD_cons]
      exact List.getLastD_mem_cons

/-- Only results of functions are found again: what is found is one of them, or an item of one. -/
theorem exists_result_of_offered {visit : Visit} {a : Value} (offered : a ∈ visit.offered index)
    (found : callNode? index a ≠ none) : ∃ r ∈ visit.inner, a ∈ normalizeArguments r := by
  have itself {r : Value} (same : a = r) (result : r ∈ visit.inner) :
      ∃ r ∈ visit.inner, a ∈ normalizeArguments r :=
    ⟨r, result, by rw [← same, normalizeArguments_of_callNode found]; exact List.mem_singleton_self a⟩
  unfold Visit.offered at offered
  cases whole : callNode? index visit.node.source with
  | some node =>
    rw [fill_of_callNode whole] at offered
    cases results : visit.inner with
    | nil =>
      rw [results] at offered
      obtain rfl := List.mem_singleton.mp offered
      contradiction
    | cons r rest =>
      rw [results, List.getLastD_cons] at offered
      exact ⟨_, List.getLastD_mem_cons, offered⟩
  | none =>
    cases several : isSequence visit.node.source with
    | false =>
      rw [normalizeArguments_of_not_sequence (isSequence_fill whole several _)] at offered
      rw [List.mem_singleton.mp offered, callNode?_fill whole] at found
      contradiction
    | true =>
      obtain ⟨xs, filled⟩ : ∃ xs, normalizeArguments (fill index true visit.node.source visit.inner) =
          fillAll index true xs visit.inner := by
        cases source : visit.node.source <;> rw [source] at several <;>
          first | exact ⟨_, rfl⟩ | contradiction
      rw [filled] at offered
      obtain ⟨x, part, some, rfl⟩ := mem_fillAll offered
      exact itself rfl (some (mem_of_callNode?_fill found))

/-- A visit that ends well with its arguments looked at again makes one invocation for its node and
one for each call node that was found again. -/
theorem Visit.inspecting_calls {visit : Visit} {v : Value}
    (ended : (visit.course e e.inspecting).outcome = .ok v) :
    (∃ own, visit.own? e e.inspecting = some own ∧ own.name = visit.node.name) ∧
      (visit.course e e.inspecting).calls.length = (visit.again e.index).length + 1 := by
  obtain ⟨arguments, gathered⟩ := Visit.gathered_of_ok ended
  obtain ⟨own, made, calls, named, -⟩ := visit.course_calls (e := e) gathered
  refine ⟨⟨own, made, named⟩, ?_⟩
  have again : (visit.gathered e.inspecting).calls.length = (visit.again e.index).length :=
    evaluateAll_calls_length gathered
  rw [calls, List.length_append, again]
  rfl

variable {call : Caller} {tracing : Bool} {c : Config} {document v data result : Value}
  {past start : List Event}

/-- What a successful run that a reader drives invokes: for every call node of the document, in their
order, the function of the node once, after the functions for what is found again among its
arguments. Only results of functions are found again. So the invocations are as many as the call
nodes exactly if no argument, when its call is made, has the shape of a call node. -/
theorem driverFed_invocations (presents : Presents c.format document v)
    (mode : Mode.select document c = .driverFed)
    (starts : Starts call tracing c document data past e start)
    (ended : ((transformWith call tracing c document data).after past).outcome = .ok result) :
    let visits := e.visits true e.inspecting (callNodes e.index true v) [] start
    let calls := ((transformWith call tracing c document data).after past).calls
    calls = (visits.flatMap fun visit => (visit.course e e.inspecting).calls) ∧
      visits.map (·.node) = callNodes e.index true v ∧
      (∀ visit ∈ visits,
        (∃ own, visit.own? e e.inspecting = some own ∧ own.name = visit.node.name) ∧
        (visit.course e e.inspecting).calls.length = (visit.again e.index).length + 1 ∧
        ∀ a ∈ visit.offered e.index, callNode? e.index a ≠ none →
          ∃ r ∈ visit.inner, a ∈ normalizeArguments r) ∧
      (calls.length = (callNodes e.index true v).length ↔
        ∀ visit ∈ visits, ∀ a ∈ visit.offered e.index, callNode? e.index a = none) := by
  intro visits calls
  have fits : Presents e.config.format document v := by rwa [starts.config]
  obtain ⟨t, rfl, distinct, fed, -⟩ := run_of_presents e fits
  obtain ⟨same, outcome⟩ := starts.transform
  rw [mode, fed, resolve_eq_execute e t distinct [], Run.after_andThen_done] at same outcome
  rw [outcome] at ended
  cases executed : ((e.execute true e.inspecting (callNodes e.index true t.toValue) []).after
      start).outcome with
  | error f =>
    rw [executed] at ended
    contradiction
  | ok results =>
    obtain ⟨all, well⟩ := visits_of_ok executed
    have split : calls = visits.flatMap fun visit => (visit.course e e.inspecting).calls :=
      same.trans execute_calls
    have each : ∀ visit ∈ visits,
        (visit.course e e.inspecting).calls.length = (visit.again e.index).length + 1 :=
      fun visit inside => (well visit inside).elim fun _ ok => (Visit.inspecting_calls ok).2
    refine ⟨split, all, fun visit inside => ⟨?_, each visit inside, fun a =>
      exists_result_of_offered⟩, ?_⟩
    · exact (well visit inside).elim fun _ ok => (Visit.inspecting_calls ok).1
    · have count := congrArg List.length all
      rw [List.length_map] at count
      have sum : calls.length =
          visits.length + (visits.map fun visit => (visit.again e.index).length).sum := by
        rw [split, List.length_flatMap, List.map_congr_left each, List.sum_map_add]
        simp [Nat.add_comm]
      rw [sum, ← count, Nat.add_eq_left, List.sum_eq_zero_iff]
      simp only [List.forall_mem_map, List.length_eq_zero_iff, Visit.again, callNodesAll_shallow]

/-- Identity called with what a function returns that returns the shape of a call node. -/
def quoted : Value := Sample.calling "identity" (Sample.calling "quote_add" (.list []))

/-- For this document with two call nodes a run that a reader drives makes three invocations: the
mapping that the inner function returns is found again and invokes a function itself. -/
theorem quoted_invokes_its_result :
    quoted.IsJson ∧ ∃ e start,
      Starts Sample.call false (Sample.config.withMode (.bool true)) quoted .null [] e start ∧
      (callNodes e.index true quoted).map (·.name) = ["quote_add", "identity"] ∧
      ((transformWith Sample.call false (Sample.config.withMode (.bool true)) quoted .null).after
        []).succeeds = true ∧
      ((transformWith Sample.call false (Sample.config.withMode (.bool true)) quoted .null).after
        []).calls.map (·.name) = ["quote_add", "add", "identity"] := by
  have json : quoted.IsJson := by
    simp [quoted, Sample.calling, Value.IsJson, Value.AreJson, Value.HoldJson]
  obtain ⟨e, start, starts, nodes⟩ := exists_starts
    (by decide +kernel : startsAt Sample.call false (Sample.config.withMode (.bool true)) quoted .null
      [] (fun e _ => (callNodes e.index true quoted).map (·.name) == ["quote_add", "identity"]) = true)
  exact ⟨json, e, start, starts, beq_iff_eq.mp nodes, by decide +kernel, by decide +kernel⟩

/-- In the packed document nothing is found again, so the invocations are as many as the call nodes.
-/
theorem packed_invocations :
    ∃ e start,
      Starts Sample.call false (Sample.config.withMode (.bool true)) packed .null [] e start ∧
      ((transformWith Sample.call false (Sample.config.withMode (.bool true)) packed .null).after
        []).calls.length = (callNodes e.index true packed).length := by
  obtain ⟨e, start, starts, quiet⟩ := exists_starts
    (by decide +kernel : startsAt Sample.call false (Sample.config.withMode (.bool true)) packed .null
      [] (fun e start => decide
        (∀ visit ∈ e.visits true e.inspecting (callNodes e.index true packed) [] start,
          ∀ a ∈ visit.offered e.index, callNode? e.index a = none)) = true)
  obtain ⟨result, ended⟩ := Course.exists_ok
    (by decide +kernel : ((transformWith Sample.call false (Sample.config.withMode (.bool true))
      packed .null).after []).succeeds = true)
  obtain ⟨-, -, -, count⟩ := driverFed_invocations (.structured packed_isJson rfl) rfl starts ended
  exact ⟨e, start, starts, count.mpr (of_decide_eq_true quiet)⟩

end LiveDoc.Engine
