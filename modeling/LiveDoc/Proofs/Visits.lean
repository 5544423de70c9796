import LiveDoc.Proofs.Execution

/-!
# Visits of call nodes

Executing call nodes visits them in their order until a visit fails. A visit gathers the arguments of
its node and invokes the function with them; together the visits are all that the execution does. Two
ways of gathering that agree at every visit therefore take the same course.
-/

namespace LiveDoc.Engine

/-- A call node when it is reached: the results of the call nodes within its arguments, and what was
shown by then. -/
structure Visit where
  node : CallNode
  inner : List Value
  past : List Event

namespace Visit

/-- What gathering the arguments does. -/
def gathered (gather : Gathering) (visit : Visit) : Course (List Value) :=
  (gather visit.node visit.inner).after visit.past

/-- What the whole visit does. -/
def course (e : Engine) (gather : Gathering) (visit : Visit) : Course Value :=
  ((gather visit.node visit.inner).andThen (e.invoke visit.node.name)).after visit.past

end Visit

/-- The visits that executing call nodes makes, after given results and events. -/
def visits (e : Engine) (deep : Bool) (gather : Gathering) :
    List CallNode → List Value → List Event → List Visit
  | [], _, _ => []
  | node :: nodes, prior, past =>
    let visit : Visit := ⟨node, node.inner e.index deep prior, past⟩
    let course := visit.course e gather
    visit :: match course.outcome with
      | .ok v => visits e deep gather nodes (prior ++ [v]) (past ++ course.log)
      | .error _ => []

variable {e : Engine} {deep : Bool} {gather other : Gathering} {node : CallNode}
  {nodes : List CallNode} {prior : List Value} {past : List Event}

/-- Executing call nodes is visiting the first one and executing the others with its result. -/
theorem execute_cons :
    e.execute deep gather (node :: nodes) prior =
      ((gather node (node.inner e.index deep prior)).andThen (e.invoke node.name)).andThen fun v =>
        (e.execute deep gather nodes (prior ++ [v])).andThen fun vs => .done (v :: vs) := by
  rw [execute, Run.andThen_assoc]

/-- The results of the call nodes within the arguments are no more than those call nodes. -/
theorem CallNode.inner_length_le (index : TagIndex) (node : CallNode) (results : List Value) :
    (node.inner index deep results).length ≤ node.span index deep := by
  simp [CallNode.inner]
  omega

/-- What holds of the first visit and of all later ones holds of every visit. -/
theorem forall_visits_cons {motive : Visit → Prop}
    (first : motive ⟨node, node.inner e.index deep prior, past⟩)
    (later : ∀ v, (Visit.course e gather ⟨node, node.inner e.index deep prior, past⟩).outcome =
        .ok v →
      ∀ visit ∈ e.visits deep gather nodes (prior ++ [v]) (past ++
        (Visit.course e gather ⟨node, node.inner e.index deep prior, past⟩).log), motive visit) :
    ∀ visit ∈ e.visits deep gather (node :: nodes) prior past, motive visit := by
  intro visit inside
  rcases List.mem_cons.mp inside with rfl | inside
  · exact first
  · split at inside
    · rename_i v ended
      exact later v ended visit inside
    · contradiction

/-- No visit has more results than there are call nodes within the arguments of its node. -/
theorem visits_inner_length_le :
    ∀ visit ∈ e.visits deep gather nodes prior past,
      visit.inner.length ≤ visit.node.span e.index deep := by
  induction nodes generalizing prior past with
  | nil => exact fun _ inside => nomatch inside
  | cons node nodes ih =>
    exact forall_visits_cons (CallNode.inner_length_le e.index node prior) fun _ _ => ih

/-- Ways of gathering that agree at every visit take the same course. -/
theorem execute_congr
    (agree : ∀ visit ∈ e.visits deep gather nodes prior past,
      gather visit.node visit.inner = other visit.node visit.inner) :
    (e.execute deep gather nodes prior).after past =
      (e.execute deep other nodes prior).after past := by
  induction nodes generalizing prior past with
  | nil => rfl
  | cons node nodes ih =>
    have first := agree _ List.mem_cons_self
    simp only [execute_cons, ← first]
    let step := (gather node (node.inner e.index deep prior)).andThen (e.invoke node.name)
    cases ended : (step.after past).outcome with
    | error f => rw [Run.after_andThen_of_error ended, Run.after_andThen_of_error ended]
    | ok v =>
      have later : ∀ visit ∈ e.visits deep gather nodes (prior ++ [v])
          (past ++ (step.after past).log),
          gather visit.node visit.inner = other visit.node visit.inner := fun visit inside =>
        agree visit (List.mem_cons_of_mem _ (by simpa only [Visit.course, step, ended] using inside))
      rw [Run.after_andThen_of_ok ended, Run.after_andThen_of_ok ended, Run.after_andThen_done,
        Run.after_andThen_done, ih later]

/-- The visits of an execution are those of the first call nodes. -/
theorem visits_nodes {nodes : List CallNode} {prior : List Value} {past : List Event} :
    ∃ rest, nodes = (e.visits deep gather nodes prior past).map (·.node) ++ rest := by
  induction nodes generalizing prior past with
  | nil => exact ⟨[], rfl⟩
  | cons node nodes ih =>
    simp only [visits]
    split
    · obtain ⟨rest, same⟩ := ih
      exact ⟨rest, congrArg (node :: ·) same⟩
    · exact ⟨nodes, rfl⟩

/-- The invocations of an execution are those of its visits. -/
theorem execute_calls :
    ((e.execute deep gather nodes prior).after past).calls =
      (e.visits deep gather nodes prior past).flatMap fun visit => (visit.course e gather).calls := by
  induction nodes generalizing prior past with
  | nil => rfl
  | cons node nodes ih =>
    let step := (gather node (node.inner e.index deep prior)).andThen (e.invoke node.name)
    rw [execute_cons]
    cases ended : (step.after past).outcome with
    | error f =>
      rw [Run.after_andThen_of_error ended]
      simp [visits, Visit.course, step, ended]
    | ok v =>
      rw [Run.after_andThen_of_ok ended, Run.after_andThen_done, Course.followedBy]
      simp only [visits, Visit.course, step, ended, List.flatMap_cons, ih]

/-- An execution that ends well visits every call node, and every visit ends well. -/
theorem visits_of_ok {results : List Value}
    (ended : ((e.execute deep gather nodes prior).after past).outcome = .ok results) :
    (e.visits deep gather nodes prior past).map (·.node) = nodes ∧
      ∀ visit ∈ e.visits deep gather nodes prior past,
        ∃ v, (visit.course e gather).outcome = .ok v := by
  induction nodes generalizing prior past results with
  | nil => exact ⟨rfl, fun _ inside => nomatch inside⟩
  | cons node nodes ih =>
    let step := (gather node (node.inner e.index deep prior)).andThen (e.invoke node.name)
    rw [execute_cons] at ended
    cases first : (step.after past).outcome with
    | error f =>
      rw [Run.after_andThen_of_error first] at ended
      contradiction
    | ok v =>
      rw [Run.after_andThen_of_ok first, Run.after_andThen_done, Course.followedBy] at ended
      cases rest : ((e.execute deep gather nodes (prior ++ [v])).after
          (past ++ (step.after past).log)).outcome with
      | error f =>
        rw [rest] at ended
        contradiction
      | ok vs =>
        obtain ⟨all, well⟩ := ih rest
        refine ⟨?_, forall_visits_cons ⟨v, first⟩ fun w again => ?_⟩
        · simpa only [visits, Visit.course, step, first, List.map_cons, List.cons.injEq, true_and]
            using all
        · obtain rfl := Except.ok.inj (first.symm.trans again)
          exact well

end LiveDoc.Engine
