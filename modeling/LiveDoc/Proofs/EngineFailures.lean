import LiveDoc.Transform
import LiveDoc.Proofs.Invocations

/-!
# What an engine fails with

An engine fails with failures of the library's own only, since what a function reports becomes a failure
of its call. Only what stands in place of a function's failure that cannot be told is passed on as it is.
None of these is the end of an iteration, so a reader passes on the failures of an engine that it drives
unchanged.
-/

namespace LiveDoc

namespace Json

/-- A reader passes on a run unchanged whose failures it passes on unchanged. -/
theorem throughReader_eq {α : Type} {cs : List Char} {r : Run α}
    (same : ∀ past f, (r.after past).outcome = .error f → hookFailure cs f = f) :
    throughReader cs r = r := by
  ext1
  funext past
  rw [throughReader, Run.after_handle_fail]
  cases course : r.after past with
  | mk log calls outcome =>
    cases outcome with
    | ok a => rfl
    | error f => exact congrArg (fun g => Course.mk log calls (.error g)) (same past f (by rw [course]))

@[simp]
theorem throughReader_done {α : Type} (cs : List Char) (a : α) : throughReader cs (.done a) = .done a :=
  throughReader_eq fun past f failed => by simp at failed

/-- What only changes the value of a run is nothing to the reader. -/
theorem throughReader_andThen_done {α β : Type} (cs : List Char) (r : Run α) (g : α → β) :
    throughReader cs (r.andThen fun a => .done (g a)) =
      (throughReader cs r).andThen fun a => .done (g a) := by
  ext1
  funext past
  rw [Run.after_andThen_done, throughReader, throughReader, Run.after_handle_fail,
    Run.after_handle_fail, Run.after_andThen_done]
  cases (r.after past).outcome <;> rfl

end Json

/-- Whether a course passes on a failure in place of one that a function invoked in it ended with. -/
def Course.PassesOn {α : Type} (course : Course α) (f : Failure) : Prop :=
  ∃ call ∈ course.calls, ∃ g, call.outcome = .error g ∧ g.inPlace? = some f

/-- Whether a run fails only with failures of the library's own and with those that it passes on. -/
def Run.FailsOwn {α : Type} (r : Run α) : Prop :=
  ∀ past f, (r.after past).outcome = .error f → f.isOwn = true ∨ (r.after past).PassesOn f

namespace Run

variable {α β : Type}

theorem failsOwn_done (a : α) : (done a).FailsOwn := by
  intro past f failed
  simp at failed

theorem failsOwn_fail {f : Failure} (own : f.isOwn = true) : (fail f : Run α).FailsOwn := by
  intro past g failed
  exact .inl (by rwa [← Except.error.inj failed])

/-- Runs that follow one another fail in this way if each of them does. -/
theorem failsOwn_andThen {r : Run α} {f : α → Run β} (first : r.FailsOwn)
    (later : ∀ a, (f a).FailsOwn) : (r.andThen f).FailsOwn := by
  intro past g failed
  cases ended : (r.after past).outcome with
  | error e =>
    rw [after_andThen_of_error ended] at failed ⊢
    obtain rfl := Except.error.inj failed
    exact first past _ ended
  | ok a =>
    rw [after_andThen_of_ok ended] at failed ⊢
    exact (later a _ g failed).imp_right fun ⟨call, inside, passed⟩ =>
      ⟨call, List.mem_append_right _ inside, passed⟩

end Run

namespace Engine

open Json (Tree)

/-- What is told of a call is one of the library's own failures, or passed on in place of one. -/
theorem isOwn_callFailure (name : String) (arguments : List Value) (f : Failure) :
    (callFailure name arguments f).isOwn = true ∨
      f.inPlace? = some (callFailure name arguments f) := by
  unfold callFailure
  split
  · exact .inl ‹_›
  · cases instead : f.inPlace? with
    | none => exact .inl rfl
    | some g => exact .inr rfl

variable (e : Engine)

theorem failsOwn_invoke (name : String) (arguments : List Value) :
    (e.invoke name arguments).FailsOwn := by
  intro past f failed
  obtain ⟨call, before, between, calls, -, -, -, outcome⟩ := e.invoke_course name arguments past
  rw [outcome] at failed
  cases ended : call.outcome with
  | ok v =>
    rw [ended] at failed
    cases failed
  | error g =>
    rw [ended] at failed
    obtain rfl := Except.error.inj failed
    exact (isOwn_callFailure name arguments g).imp_right fun passed =>
      ⟨call, by simp [calls], g, ended, passed⟩

/-- Executing call nodes fails in this way if gathering their arguments does. -/
theorem failsOwn_execute {deep : Bool} {gather : Gathering}
    (gathering : ∀ node inner, (gather node inner).FailsOwn) (nodes : List CallNode)
    (prior : List Value) : (e.execute deep gather nodes prior).FailsOwn := by
  induction nodes generalizing prior with
  | nil => exact Run.failsOwn_done []
  | cons node nodes ih =>
    exact Run.failsOwn_andThen (gathering _ _) fun arguments =>
      Run.failsOwn_andThen (failsOwn_invoke e node.name arguments) fun v =>
        Run.failsOwn_andThen (ih _) fun vs => Run.failsOwn_done _

/-- Evaluation fails in this way. -/
theorem failsOwn_evaluate (deep : Bool) (v : Value) : (e.evaluate deep v).FailsOwn := by
  rw [evaluate_eq_execute e v []]
  exact Run.failsOwn_andThen (failsOwn_execute e (fun _ _ => Run.failsOwn_done _) _ _) fun _ =>
    Run.failsOwn_done _

mutual

/-- Reviving the objects of a tree fails in this way. -/
theorem failsOwn_resolve : ∀ t : Tree, (t.resolve e.revive).FailsOwn
  | .array ts =>
    Run.failsOwn_andThen (failsOwn_resolveList ts) fun _ => Run.failsOwn_done _
  | .object ms =>
    Run.failsOwn_andThen (failsOwn_resolveMembers ms) fun _ => failsOwn_evaluate e false _
  | .null | .bool _ | .int _ | .float _ | .text _ => Run.failsOwn_done _

theorem failsOwn_resolveList : ∀ ts : List Tree, (Tree.resolveList e.revive ts).FailsOwn
  | [] => Run.failsOwn_done []
  | t :: ts => Run.failsOwn_andThen (failsOwn_resolve t) fun _ =>
    Run.failsOwn_andThen (failsOwn_resolveList ts) fun _ => Run.failsOwn_done _

theorem failsOwn_resolveMembers : ∀ ms : List (String × Tree),
    (Tree.resolveMembers e.revive ms).FailsOwn
  | [] => Run.failsOwn_done []
  | (_, t) :: ms => Run.failsOwn_andThen (failsOwn_resolve t) fun _ =>
    Run.failsOwn_andThen (failsOwn_resolveMembers ms) fun _ => Run.failsOwn_done _

end

/-- What stands in place of a failure that cannot be told is not the end of an iteration. -/
theorem hookFailure_inPlace? (cs : List Char) {f g : Failure} (instead : f.inPlace? = some g) :
    Json.hookFailure cs g = g := by
  unfold Failure.inPlace? at instead
  split at instead
  · rw [← Option.some.inj instead]
    rfl
  · rw [← Option.some.inj instead]
    rfl
  · contradiction

/-- A failure of the library's own is not the end of an iteration either. -/
theorem hookFailure_of_own (cs : List Char) {f : Failure} (own : f.isOwn = true) :
    Json.hookFailure cs f = f := by
  cases f with
  | fault => contradiction
  | _ => rfl

/-- A reader passes on a run that fails in this way unchanged. -/
theorem throughReader_of_failsOwn {α : Type} (cs : List Char) {r : Run α} (fails : r.FailsOwn) :
    Json.throughReader cs r = r :=
  Json.throughReader_eq fun past f failed => by
    rcases fails past f failed with own | ⟨call, -, g, -, instead⟩
    · exact hookFailure_of_own cs own
    · exact hookFailure_inPlace? cs instead

/-- An engine that a reader drives revives the tree of a text. -/
theorem decodeWith_revive {s : String} {t : Tree} (read : Json.read s.toList = .ok t) :
    Json.decodeWith e.revive s = t.resolve e.revive := by
  simp only [Json.decodeWith, read, throughReader_of_failsOwn _ (failsOwn_resolve e t)]

/-- In a text that is not read it revives what is complete, and then the reader fails. -/
theorem decodeWith_unread {s : String} {stop : Json.Stop} (unread : Json.read s.toList = .error stop) :
    Json.decodeWith e.revive s =
      (Tree.resolveList e.revive stop.closed).andThen fun _ => .fail (stop.failure s.toList) := by
  simp only [Json.decodeWith, unread, throughReader_of_failsOwn _ (failsOwn_resolveList e stop.closed)]

end Engine

end LiveDoc
