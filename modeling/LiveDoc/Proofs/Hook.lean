import LiveDoc.Proofs.Resolved

/-!
# Looking at a single node

An engine that looks at a single node finds the call nodes that it reaches through call nodes alone;
what stands below a list or a literal mapping among the arguments it takes to be resolved. It comes to
what an engine comes to that goes through the node exactly if it finds all call nodes in this way.
-/

namespace LiveDoc.Engine

variable {index : TagIndex} {e : Engine}

/-- The call nodes at the surface of values are some of all, in order. -/
theorem callNodesAll_sublist {xs : List Value}
    (items : ∀ x ∈ xs, (callNodes index false x).Sublist (callNodes index true x)) :
    (callNodesAll index false xs).Sublist (callNodesAll index true xs) := by
  induction xs with
  | nil => exact List.Sublist.refl []
  | cons x xs ih =>
    exact (items x List.mem_cons_self).append
      (ih fun y inside => items y (List.mem_cons_of_mem x inside))

/-- The call nodes at the surface of a value are some of all, in order. -/
theorem callNodes_sublist (v : Value) :
    (callNodes index false v).Sublist (callNodes index true v) := by
  induction v using documentInduction index with
  | call v name source call items =>
    rw [callNodes_of_callNode call, callNodes_of_callNode call]
    exact (callNodesAll_sublist items).append (List.Sublist.refl _)
  | list xs => exact List.nil_sublist _
  | tuple xs => exact List.nil_sublist _
  | mapping es literal =>
    rw [callNodes_shallow literal]
    exact List.nil_sublist _
  | leaf v leaf =>
    rw [callNodes_leaf leaf]
    exact List.nil_sublist _

/-! ## Finding all call nodes -/

/-- Values at whose surface all call nodes stand are gone through as they are looked at. -/
theorem evaluateAll_of_surface {xs : List Value}
    (items : ∀ x ∈ xs, (callNodes e.index false x).length = (callNodes e.index true x).length →
      e.evaluate false x = e.evaluate true x)
    (all : (callNodesAll e.index false xs).length = (callNodesAll e.index true xs).length) :
    e.evaluateAll false xs = e.evaluateAll true xs := by
  induction xs with
  | nil => rfl
  | cons x xs ih =>
    have first : (callNodes e.index false x).length ≤ (callNodes e.index true x).length :=
      (callNodes_sublist x).length_le
    have rest : (callNodesAll e.index false xs).length ≤ (callNodesAll e.index true xs).length :=
      (callNodesAll_sublist fun y _ => callNodes_sublist y).length_le
    simp only [callNodesAll, List.length_append] at all
    have here : (callNodes e.index false x).length = (callNodes e.index true x).length := by omega
    have there : (callNodesAll e.index false xs).length =
        (callNodesAll e.index true xs).length := by omega
    rw [evaluateAll, evaluateAll, items x List.mem_cons_self here,
      ih (fun y inside => items y (List.mem_cons_of_mem x inside)) there]

/-- What is no call node has none at its surface, so it is resolved if all stand there. -/
theorem evaluate_of_literal {v : Value} (literal : callNode? e.index v = none)
    (all : (callNodes e.index false v).length = (callNodes e.index true v).length) :
    e.evaluate false v = e.evaluate true v := by
  rw [callNodes_shallow literal] at all
  have resolved : callNodes e.index true v = [] := List.eq_nil_of_length_eq_zero all.symm
  rw [evaluate_shallow e literal, evaluate_of_resolved e v resolved]

/-- An engine that finds all call nodes of a value at its surface evaluates it as one that goes
through it. -/
theorem evaluate_of_surface (v : Value)
    (all : (callNodes e.index false v).length = (callNodes e.index true v).length) :
    e.evaluate false v = e.evaluate true v := by
  induction v using documentInduction e.index with
  | call v name source call items =>
    rw [callNodes_of_callNode call, callNodes_of_callNode call, List.length_append,
      List.length_append, Nat.add_right_cancel_iff] at all
    rw [evaluate_of_callNode e call, evaluate_of_callNode e call, evaluateAll_of_surface items all]
  | list xs => exact evaluate_of_literal (callNode?_list xs) all
  | tuple xs => exact evaluate_of_literal (callNode?_tuple xs) all
  | mapping es literal => exact evaluate_of_literal literal all
  | leaf v leaf => rw [evaluate_leaf e leaf, evaluate_leaf e leaf]

/-! ## Missing some call nodes -/

/-- An engine whose evaluation ends well makes one invocation for each call node that it finds. -/
theorem evaluate_calls_length {deep : Bool} {v result : Value} {past : List Event}
    (ended : ((e.evaluate deep v).after past).outcome = .ok result) :
    ((e.evaluate deep v).after past).calls.length = (callNodes e.index deep v).length := by
  rw [evaluate_eq_execute e v [], Run.after_andThen_done] at ended ⊢
  cases executed : ((e.execute deep (e.resolving deep) (callNodes e.index deep v) []).after
      past).outcome with
  | error f =>
    rw [executed] at ended
    contradiction
  | ok results => exact execute_calls_length executed

/-- An engine with another way to call functions. -/
def calling (call : Caller) (e : Engine) : Engine := { e with call := call }

/-- Functions that all return nothing. -/
def returnNothing : Caller := fun _ _ => .done .null

section ReturnNothing

variable (nothing : e.call = returnNothing)
include nothing

/-- Functions that return nothing never fail. -/
theorem invoke_returnNothing (name : String) (arguments : List Value) (past : List Event) :
    ((e.invoke name arguments).after past).outcome = .ok .null := by
  obtain ⟨call, before, between, -, -, -, answers, outcome⟩ := e.invoke_course name arguments past
  have returned : call.returned = .ok .null := by
    rw [answers.returned, nothing]
    rfl
  have kept : call.outcome = .ok .null := answers.plain .null returned (Bool.and_false _)
  rw [outcome, kept]
  rfl

/-- Executing call nodes ends well if all functions return nothing. -/
theorem execute_returnNothing (deep : Bool) (nodes : List CallNode) (prior : List Value)
    (past : List Event) :
    ∃ results, ((e.execute deep (e.resolving deep) nodes prior).after past).outcome =
      .ok results := by
  induction nodes generalizing prior past with
  | nil => exact ⟨[], rfl⟩
  | cons node nodes ih =>
    have first := invoke_returnNothing nothing node.name
      (node.resolved e.index deep (node.inner e.index deep prior)) past
    rw [execute, resolving, Run.done_andThen, Run.after_andThen_of_ok first, Run.after_andThen_done]
    obtain ⟨results, ended⟩ := ih (prior ++ [.null]) _
    exact ⟨.null :: results, by rw [Course.followedBy, ended]; rfl⟩

/-- So does the evaluation of a value. -/
theorem evaluate_returnNothing (deep : Bool) (v : Value) (past : List Event) :
    ∃ result, ((e.evaluate deep v).after past).outcome = .ok result := by
  obtain ⟨results, ended⟩ := execute_returnNothing nothing deep (callNodes e.index deep v) [] past
  rw [evaluate_eq_execute e v [], Run.after_andThen_done, ended]
  exact ⟨_, rfl⟩

end ReturnNothing

/-- What an engine makes of a node that it looks at. It executes the call nodes at the surface of the
node, which are some of all call nodes in it, and fills in their results. Whatever the functions do,
that is the run of an engine that goes through the node, if and only if all call nodes stand at the
surface. Where both runs end well, the two are the same in no other case: each makes as many
invocations as it finds call nodes. -/
theorem revive_eq_evaluate_iff (e : Engine) (v : Value) :
    let surface := callNodes e.index false v
    let all := callNodes e.index true v
    e.revive v = ((e.execute false (e.resolving false) surface []).andThen fun results =>
      .done (fill e.index false v results)) ∧
    surface.Sublist all ∧
    ((∀ call, (e.calling call).revive v = (e.calling call).evaluate true v) ↔
      surface.length = all.length) ∧
    ∀ past, ((e.revive v).after past).succeeds = true →
      ((e.evaluate true v).after past).succeeds = true →
        ((e.revive v).after past).calls.length = surface.length ∧
        ((e.evaluate true v).after past).calls.length = all.length ∧
        ((e.revive v).after past = (e.evaluate true v).after past ↔
          surface.length = all.length) := by
  intro surface all
  refine ⟨evaluate_eq_execute e v [], callNodes_sublist v, ⟨fun agree => ?_, fun full call => ?_⟩,
    fun past hooked own => ?_⟩
  · -- functions that never fail let both runs tell how many call nodes they found
    obtain ⟨_, found⟩ := evaluate_returnNothing (e := e.calling returnNothing) rfl false v []
    obtain ⟨_, ended⟩ := evaluate_returnNothing (e := e.calling returnNothing) rfl true v []
    have few := evaluate_calls_length found
    have many := evaluate_calls_length ended
    have same : (e.calling returnNothing).evaluate false v =
        (e.calling returnNothing).evaluate true v := agree returnNothing
    rw [same] at few
    exact few.symm.trans many
  · exact evaluate_of_surface (e := e.calling call) v full
  · obtain ⟨_, found⟩ := Course.exists_ok hooked
    obtain ⟨_, ended⟩ := Course.exists_ok own
    have few : ((e.revive v).after past).calls.length = surface.length :=
      evaluate_calls_length found
    have many : ((e.evaluate true v).after past).calls.length = all.length :=
      evaluate_calls_length ended
    refine ⟨few, many, fun same => ?_, fun full => ?_⟩
    · rw [← few, ← many, same]
    · have same : e.revive v = e.evaluate true v := evaluate_of_surface v full
      rw [same]

/-- A call whose argument is a list with another call in it. -/
def buried : Value :=
  Sample.calling "identity" (.list [.list [Sample.calling "add" (.list [.int 1, .int 2])]])

/-- An engine that looks at this call node leaves out the inner call, which an engine that goes
through the node invokes. -/
theorem buried_isLeftOut :
    ∃ e, (make Sample.call false Sample.config .null).Yields e ∧
      (callNode? e.index buried).isSome = true ∧
      ((e.revive buried).after []).succeeds = true ∧
      ((e.evaluate true buried).after []).succeeds = true ∧
      ((e.revive buried).after []).calls.map (·.name) = ["identity"] ∧
      ((e.evaluate true buried).after []).calls.map (·.name) = ["add", "identity"] := by
  obtain ⟨e, made, passed⟩ := exists_made
    (by decide +kernel : makes Sample.call false Sample.config .null (fun e => decide
      ((callNode? e.index buried).isSome = true ∧
        ((e.revive buried).after []).succeeds = true ∧
        ((e.evaluate true buried).after []).succeeds = true ∧
        ((e.revive buried).after []).calls.map (·.name) = ["identity"] ∧
        ((e.evaluate true buried).after []).calls.map (·.name) = ["add", "identity"])) = true)
  exact ⟨e, made, of_decide_eq_true passed⟩

/-- A call whose argument is another call. -/
def direct : Value :=
  Sample.calling "identity" (.list [Sample.calling "add" (.list [.int 1, .int 2])])

/-- An engine that looks at this call node takes the same course as one that goes through it. -/
theorem surface_agrees :
    ∃ e, (make Sample.call false Sample.config .null).Yields e ∧
      (e.revive direct).after [] = (e.evaluate true direct).after [] := by
  obtain ⟨e, made, passed⟩ := exists_made
    (by decide +kernel : makes Sample.call false Sample.config .null (fun e => decide
      (((e.revive direct).after []).succeeds = true ∧
        ((e.evaluate true direct).after []).succeeds = true ∧
        (callNodes e.index false direct).length = (callNodes e.index true direct).length)) = true)
  obtain ⟨hooked, own, full⟩ := of_decide_eq_true passed
  obtain ⟨-, -, -, here⟩ := revive_eq_evaluate_iff e direct
  exact ⟨e, made, (here [] hooked own).2.2.mpr full⟩

end LiveDoc.Engine
