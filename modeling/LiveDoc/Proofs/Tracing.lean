import LiveDoc.Proofs.DriverFed
import LiveDoc.Proofs.Invocations

/-!
# Runs under a trace

While tracing an engine shows lines of its own among the events of the functions. Functions that do
not heed such lines lead an engine through the same course whatever lines were shown before it.
-/

namespace LiveDoc

/-- Whether an event is a line of the trace. -/
def Event.isTrace : Event → Bool
  | .trace _ => true
  | _ => false

/-- Events without the lines of the trace among them. -/
def untraced (log : List Event) : List Event := log.filter fun event => !event.isTrace

@[simp]
theorem untraced_append (log later : List Event) :
    untraced (log ++ later) = untraced log ++ untraced later :=
  List.filter_append log later

/-- Courses that differ in lines of the trace at most. -/
structure Course.Alike {α : Type} (course other : Course α) : Prop where
  log : untraced course.log = untraced other.log
  calls : course.calls = other.calls
  outcome : course.outcome = other.outcome

theorem Course.Alike.refl {α : Type} (course : Course α) : course.Alike course := ⟨rfl, rfl, rfl⟩

/-- Alike courses that follow alike courses make alike courses. -/
theorem Course.Alike.followedBy {α β : Type} {first other : Course α} {next later : Course β}
    (before : first.Alike other) (after : next.Alike later) :
    (first.followedBy next).Alike (other.followedBy later) where
  log := by simp [Course.followedBy, before.log, after.log]
  calls := by simp [Course.followedBy, before.calls, after.calls]
  outcome := after.outcome

/-- Whether a run takes the same course whatever lines of the trace were shown before it. -/
def Run.Unheeding {α : Type} (r : Run α) : Prop :=
  ∀ past other, untraced past = untraced other → (r.after past).Alike (r.after other)

/-- Whether no function heeds the lines of the trace. -/
def Caller.Unheeding (call : Caller) : Prop := ∀ f arguments, (call f arguments).Unheeding

namespace Run

variable {α β : Type}

theorem unheeding_done (a : α) : (done a).Unheeding := fun _ _ _ => .refl _

theorem unheeding_emit (event : Event) : (emit event).Unheeding := fun _ _ _ => .refl _

/-- Runs that follow one another do not heed the trace if neither of them does. -/
theorem unheeding_andThen {r : Run α} {f : α → Run β} (first : r.Unheeding)
    (later : ∀ a, (f a).Unheeding) : (r.andThen f).Unheeding := by
  intro past other same
  have alike := first past other same
  cases ended : (r.after past).outcome with
  | error e =>
    rw [after_andThen_of_error ended, after_andThen_of_error (alike.outcome ▸ ended)]
    exact ⟨alike.log, alike.calls, rfl⟩
  | ok a =>
    rw [after_andThen_of_ok ended, after_andThen_of_ok (alike.outcome ▸ ended)]
    exact alike.followedBy (later a _ _ (by simp [same, alike.log]))

/-- A handler that only turns a failure into another one heeds nothing. -/
theorem unheeding_handle_fail {r : Run α} (unheeding : r.Unheeding) (g : Failure → Failure) :
    (r.handle fun f => fail (g f)).Unheeding := by
  intro past other same
  have alike := unheeding past other same
  rw [after_handle_fail, after_handle_fail]
  exact ⟨alike.log, alike.calls, congrArg (Except.mapError g) alike.outcome⟩

/-- An invocation does not heed the trace if its function and what completes the result do not. -/
theorem unheeding_invocation {body : Run Value} {finish : Value → Run Value}
    (first : body.Unheeding) (later : ∀ v, (finish v).Unheeding) (name : String)
    (arguments : List Value) : (invocation name arguments body finish).Unheeding := by
  intro past other same
  have whole := unheeding_andThen first later past other same
  rw [after_invocation, after_invocation, (first past other same).outcome, whole.outcome]
  exact ⟨whole.log, rfl, rfl⟩

end Run

namespace Engine

theorem unheeding_trace (tracing : Bool) (line : String) : (trace tracing line).Unheeding := by
  cases tracing
  · exact Run.unheeding_done ()
  · exact Run.unheeding_emit _

/-- Runs that agree after a line of the trace are alike after different lines, if the first one does
not heed the trace. -/
theorem alike_after_trace {α : Type} {tracing : Bool} {r s : Run α} {line other : String}
    {past : List Event} (unheeding : tracing = true → r.Unheeding)
    (agree : r.after (past ++ ((trace tracing other).after past).log) =
      s.after (past ++ ((trace tracing other).after past).log)) :
    (((trace tracing line).andThen fun _ => r).after past).Alike
      (((trace tracing other).andThen fun _ => s).after past) := by
  rw [Run.after_andThen_of_ok (trace_outcome tracing line past).1,
    Run.after_andThen_of_ok (trace_outcome tracing other past).1, ← agree]
  cases tracing with
  | false => exact .refl _
  | true =>
    have first : ((trace true line).after past).Alike ((trace true other).after past) :=
      ⟨rfl, rfl, rfl⟩
    exact first.followedBy (unheeding rfl _ _ (by simp [first.log]))

variable {e : Engine} (unheeding : e.call.Unheeding)
include unheeding

/-- An engine whose functions do not heed the trace invokes them without heeding it. -/
theorem unheeding_invoke (name : String) (arguments : List Value) :
    (e.invoke name arguments).Unheeding := by
  refine Run.unheeding_andThen (unheeding_trace _ _) fun _ => Run.unheeding_handle_fail
    (Run.unheeding_invocation (unheeding _ _) (fun v => ?_) name arguments) _
  unfold applyToData
  split
  · exact Run.unheeding_andThen (unheeding_trace _ _) fun _ => unheeding v [e.data]
  · exact Run.unheeding_done v

/-- Executing call nodes does not heed the trace if gathering their arguments does not. -/
theorem unheeding_execute {deep : Bool} {gather : Gathering}
    (gathering : ∀ node inner, (gather node inner).Unheeding) (nodes : List CallNode)
    (prior : List Value) : (e.execute deep gather nodes prior).Unheeding := by
  induction nodes generalizing prior with
  | nil => exact Run.unheeding_done []
  | cons node nodes ih =>
    exact Run.unheeding_andThen (gathering _ _) fun arguments =>
      Run.unheeding_andThen (unheeding_invoke unheeding node.name arguments) fun v =>
        Run.unheeding_andThen (ih _) fun vs => Run.unheeding_done _

/-- Looking at arguments once more does not heed the trace. -/
theorem unheeding_inspecting (node : CallNode) (inner : List Value) :
    (e.inspecting node inner).Unheeding := by
  rw [inspecting, e.evaluateAll_eq_execute (fun x _ prior => e.evaluate_eq_execute x prior) []]
  exact Run.unheeding_andThen (unheeding_execute unheeding (fun _ _ => Run.unheeding_done _) _ _)
    fun _ => Run.unheeding_done _

/-- A reader whose functions do not heed the trace goes through a document without heeding it. -/
theorem unheeding_resolve {t : Json.Tree} (distinct : t.Distinct) :
    (t.resolve e.revive).Unheeding := by
  rw [resolve_eq_execute e t distinct []]
  exact Run.unheeding_andThen (unheeding_execute unheeding (unheeding_inspecting unheeding) _ _)
    fun _ => Run.unheeding_done _

end Engine

end LiveDoc
