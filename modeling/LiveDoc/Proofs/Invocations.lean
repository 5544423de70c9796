import LiveDoc.Proofs.Execution

/-!
# Invocations of a run

An invocation passes the resolved arguments, preceded by the data if they are bound, and applies a
callable result to the data if that is asked for. Executing call nodes makes one invocation for each
until one of them fails; that failure ends the run, as it is if it is one of the library's own and
else as the failure of the call.
-/

namespace LiveDoc

/-- The results of invocations that ended well, in order. -/
def Invocation.results (calls : List Invocation) : List Value :=
  calls.filterMap fun call => call.outcome.toOption

namespace Run

/-- How the invocations of a run that goes through nodes tell its outcome: `makes` says of an invocation
that it is made for a node, given the results before it, and `tells` how its failure ends the run. -/
structure Account {Node : Type} (makes : Node → List Value → Invocation → Prop)
    (tells : Invocation → Failure → Failure) (nodes : List Node) (prior : List Value)
    (course : Course (List Value)) : Prop where
  made : ∀ before call rest, course.calls = before ++ call :: rest →
    ∃ node, nodes[before.length]? = some node ∧
      makes node (prior ++ Invocation.results before) call
  complete : (∀ call ∈ course.calls, ∃ v, call.outcome = .ok v) →
    course.calls.length = nodes.length ∧ course.outcome = .ok (Invocation.results course.calls)
  broken : ∀ before call rest f, course.calls = before ++ call :: rest →
    call.outcome = .error f → rest = [] ∧ course.outcome = .error (tells call f)

variable {Node : Type} {makes : Node → List Value → Invocation → Prop}
  {tells : Invocation → Failure → Failure} {node : Node} {nodes : List Node} {prior : List Value}
  {call : Invocation} {log : List Event}

/-- Without nodes there are no invocations. -/
theorem account_nil (prior : List Value) : Account makes tells [] prior ⟨log, [], .ok []⟩ :=
  ⟨by simp, by simp [Invocation.results], by simp⟩

/-- The first invocation fails, and nothing comes after it. -/
theorem account_of_error {f : Failure} (makesFirst : makes node prior call)
    (failed : call.outcome = .error f) :
    Account makes tells (node :: nodes) prior ⟨log, [call], .error (tells call f)⟩ := by
  refine ⟨fun before c rest split => ?_, fun all => ?_, fun before c rest g split failure => ?_⟩
  · cases before with
    | nil =>
      obtain ⟨rfl, -⟩ := List.cons.inj split
      exact ⟨node, rfl, by simpa [Invocation.results] using makesFirst⟩
    | cons => simp at split
  · obtain ⟨v, ended⟩ := all call (List.mem_singleton.mpr rfl)
    rw [ended] at failed
    contradiction
  · cases before with
    | nil =>
      obtain ⟨rfl, rfl⟩ := List.cons.inj split
      rw [failed] at failure
      obtain rfl := Except.error.inj failure
      exact ⟨rfl, rfl⟩
    | cons => simp at split

/-- The first invocation has a result, with which the others go on. -/
theorem account_of_ok {v : Value} {later : Course (List Value)} (makesFirst : makes node prior call)
    (ended : call.outcome = .ok v) (rest : Account makes tells nodes (prior ++ [v]) later) :
    Account makes tells (node :: nodes) prior
      ⟨log, call :: later.calls, later.outcome.map (v :: ·)⟩ := by
  have cons (calls : List Invocation) :
      Invocation.results (call :: calls) = v :: Invocation.results calls := by
    simp [Invocation.results, ended, Except.toOption]
  refine ⟨fun before c after split => ?_, fun all => ?_, fun before c after g split failure => ?_⟩
  · cases before with
    | nil =>
      obtain ⟨rfl, -⟩ := List.cons.inj split
      exact ⟨node, rfl, by simpa [Invocation.results] using makesFirst⟩
    | cons first before =>
      obtain ⟨rfl, tail⟩ := List.cons.inj split
      obtain ⟨found, place, fits⟩ := rest.made before c after tail
      rw [List.append_assoc, List.singleton_append, ← cons] at fits
      exact ⟨found, place, fits⟩
  · obtain ⟨count, outcome⟩ := rest.complete fun c inside => all c (List.mem_cons_of_mem _ inside)
    exact ⟨congrArg Nat.succ count, by rw [outcome, cons]; rfl⟩
  · cases before with
    | nil =>
      obtain ⟨rfl, -⟩ := List.cons.inj split
      rw [ended] at failure
      contradiction
    | cons first before =>
      obtain ⟨rfl, outcome⟩ := rest.broken before c after g (List.cons.inj split).2 failure
      exact ⟨rfl, by rw [outcome]; rfl⟩

end Run

namespace Engine

/-- What a function is passed besides nothing: its resolved arguments, after the data if they are
bound. -/
def passed (e : Engine) (arguments : List Value) : List Value :=
  if e.config.bindData.truthy then e.data :: arguments else arguments

/-- Whether a result is applied to the data. -/
def defers (e : Engine) (result : Value) : Bool :=
  e.config.callReturned.truthy && result.isCallable

/-- What an invocation does with the registered function of its name, if `before` was shown before
the function is called and `between` before its result is applied to the data. -/
structure Answers (e : Engine) (call : Invocation) (before between : List Event) : Prop where
  returned : call.returned = ((e.call ((e.config.functions.lookup call.name).getD .null)
    (e.passed call.arguments)).after before).outcome
  failed : ∀ f, call.returned = .error f → call.outcome = .error f
  deferred : ∀ v, call.returned = .ok v → e.defers v = true →
    call.outcome = ((e.call v [e.data]).after between).outcome
  plain : ∀ v, call.returned = .ok v → e.defers v = false → call.outcome = .ok v

variable (e : Engine)

/-- Showing a line while tracing always ends well. -/
theorem trace_outcome (tracing : Bool) (line : String) (past : List Event) :
    ((trace tracing line).after past).outcome = .ok () ∧
      ((trace tracing line).after past).calls = [] := by
  cases tracing <;> exact ⟨rfl, rfl⟩

/-- Applying a result to the data calls it once if it is callable and that is asked for, and leaves
it alone otherwise. -/
theorem applyToData_outcome (name : String) (result : Value) (past : List Event) :
    ∃ between, ((e.applyToData name result).after past).outcome =
      if e.defers result then ((e.call result [e.data]).after between).outcome else .ok result := by
  unfold applyToData
  rw [show (e.config.callReturned.truthy && result.isCallable) = e.defers result from rfl]
  cases e.defers result with
  | false => exact ⟨[], rfl⟩
  | true =>
    simp only [if_true]
    rw [Run.after_andThen_of_ok (trace_outcome _ _ _).1]
    exact ⟨_, rfl⟩

/-- An engine makes one invocation for a name and arguments, and reports its failure. -/
theorem invoke_course (name : String) (arguments : List Value) (past : List Event) :
    ∃ call before between, ((e.invoke name arguments).after past).calls = [call] ∧
      call.name = name ∧ call.arguments = arguments ∧ e.Answers call before between ∧
      ((e.invoke name arguments).after past).outcome =
        call.outcome.mapError (callFailure name arguments) := by
  let f := (e.config.functions.lookup name).getD .null
  let line := "CALL " ++ name ++ " argc " ++ toString arguments.length ++ " bind " ++
    e.config.bindData.display
  let start := past ++ ((trace e.tracing line).after past).log
  let body := e.call f (e.passed arguments)
  have course : (e.invoke name arguments).after past =
      ((trace e.tracing line).after past).followedBy
        (((Run.invocation name arguments body (e.applyToData name)).handle fun failure =>
          .fail (callFailure name arguments failure)).after start) :=
    Run.after_andThen_of_ok (trace_outcome e.tracing line past).1 _
  rw [course, Run.after_handle_fail, Run.after_invocation]
  simp only [Course.followedBy, (trace_outcome e.tracing line past).2, List.nil_append]
  obtain ⟨between, later⟩ : ∃ between, ∀ v, (body.after start).outcome = .ok v →
      ((e.applyToData name v).after (start ++ (body.after start).log)).outcome =
        if e.defers v then ((e.call v [e.data]).after between).outcome else .ok v := by
    cases (body.after start).outcome with
    | error failure =>
      refine ⟨[], fun v ended => ?_⟩
      contradiction
    | ok v =>
      obtain ⟨between, later⟩ :=
        e.applyToData_outcome name v (start ++ (body.after start).log)
      exact ⟨between, fun w ended => Except.ok.inj ended ▸ later⟩
  refine ⟨_, start, between, rfl, rfl, rfl, ⟨rfl, ?_, ?_, ?_⟩, rfl⟩
  · intro failure ended
    exact congrArg Course.outcome (Run.after_andThen_of_error ended _)
  · intro v ended deferred
    simp only [Run.after_andThen_of_ok ended, Course.followedBy, later v ended, deferred, if_true]
  · intro v ended plain
    simp [Run.after_andThen_of_ok ended, Course.followedBy, later v ended, plain]

/-- What an invocation for a call node is made with, given the results before it, and what it does. -/
abbrev Makes (e : Engine) (deep : Bool) (node : CallNode) (prior : List Value) (call : Invocation) :
    Prop :=
  call.name = node.name ∧
    call.arguments = node.resolved e.index deep (node.inner e.index deep prior) ∧
    ∃ shown between, e.Answers call shown between

/-- Executing call nodes with their resolved arguments makes one invocation after the other, until
one of them fails. -/
theorem execute_account (deep : Bool) (nodes : List CallNode) (prior : List Value)
    (past : List Event) :
    Run.Account (e.Makes deep) (fun call => callFailure call.name call.arguments) nodes prior
      ((e.execute deep (e.resolving deep) nodes prior).after past) := by
  -- a failed invocation ends the run; a result joins `prior`, from which later arguments are made
  induction nodes generalizing prior past with
  | nil => exact Run.account_nil prior
  | cons node nodes ih =>
    let arguments := node.resolved e.index deep (node.inner e.index deep prior)
    obtain ⟨call, shown, between, calls, named, given, answers, outcome⟩ :=
      e.invoke_course node.name arguments past
    have makes : e.Makes deep node prior call := ⟨named, given, shown, between, answers⟩
    simp only [execute, resolving, Run.done_andThen]
    cases ended : call.outcome with
    | error f =>
      rw [ended] at outcome
      rw [Run.after_andThen_of_error outcome, calls, ← named, ← given]
      exact Run.account_of_error makes ended
    | ok v =>
      rw [ended] at outcome
      rw [Run.after_andThen_of_ok outcome, Run.after_andThen_done, Course.followedBy, calls]
      exact Run.account_of_ok makes ended (ih _ _)

end Engine

end LiveDoc
