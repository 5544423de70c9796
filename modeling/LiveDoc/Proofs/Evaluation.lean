import LiveDoc.Proofs.Invocations
import LiveDoc.Proofs.Samples

/-!
# Self-driven evaluation

What an engine that goes through a document itself does, told by its invocations: they follow the
call nodes of the document one by one, and either all of them end well or the last one tells how the
run fails. A failure that a function reports is turned into one of its call, unless it cannot be told:
then another one is passed on in its place, which names neither the function nor its arguments.
-/

namespace LiveDoc

/-- Nothing stands in place of one of the library's own failures. -/
theorem Failure.isOwn_of_inPlace? {f g : Failure} (instead : f.inPlace? = some g) :
    f.isOwn = false := by
  cases f with
  | fault => rfl
  | _ => contradiction

namespace Engine

/-- A failure that is one of the library's own is reported as it is. -/
theorem callFailure_of_own {name : String} {arguments : List Value} {f : Failure}
    (own : f.isOwn = true) : callFailure name arguments f = f := by
  simp [callFailure, own]

/-- Any other failure that can be told is reported with the call that it broke and the class that caused
it. -/
theorem callFailure_of_foreign {name : String} {arguments : List Value} {f : Failure}
    (foreign : f.isOwn = false) (told : f.inPlace? = none) :
    callFailure name arguments f = .evaluation (.text name) arguments
      (f.cls.name ++ " in call to " ++ Text.literal name ++ ": " ++ f.message) (some f.cls) := by
  simp [callFailure, foreign, told]

/-- One that cannot be told is reported by what stands in its place. -/
theorem callFailure_of_inPlace? {name : String} {arguments : List Value} {f g : Failure}
    (instead : f.inPlace? = some g) : callFailure name arguments f = g := by
  simp [callFailure, Failure.isOwn_of_inPlace? instead, instead]

/-- Self-driven evaluation executes the call nodes of the document in their order. Its invocations
stand for the first call nodes, one for each, with their resolved arguments. If all of them end well
there is one for every call node, and the value is the document filled in with their results. If one
of them fails it is the last, and the run fails: with the same failure if that is one of the library's
own, and with an evaluation failure of that call if it is another one that can be told. What stands in
place of a failure that cannot be told, an interruption or a fault without words, is passed on as it
is. -/
theorem evaluate_invokes_callNodes (e : Engine) (document : Value) (past : List Event) :
    let nodes := callNodes e.index true document
    let course := (e.evaluate true document).after past
    e.evaluate true document =
        ((e.execute true (e.resolving true) nodes []).andThen fun results =>
          .done (fill e.index true document results)) ∧
      (∀ before call rest, course.calls = before ++ call :: rest →
        ∃ node, nodes[before.length]? = some node ∧ call.name = node.name ∧
          call.arguments = node.resolved e.index true
            (node.inner e.index true (Invocation.results before)) ∧
          ∃ shown between, e.Answers call shown between) ∧
      ((∀ call ∈ course.calls, ∃ v, call.outcome = .ok v) →
        course.calls.length = nodes.length ∧
          course.outcome = .ok (fill e.index true document (Invocation.results course.calls))) ∧
      ∀ before call rest f, course.calls = before ++ call :: rest → call.outcome = .error f →
        rest = [] ∧ (f.isOwn = true → course.outcome = .error f) ∧
          (f.isOwn = false → f.inPlace? = none →
            course.outcome = .error (.evaluation (.text call.name) call.arguments
              (f.cls.name ++ " in call to " ++ Text.literal call.name ++ ": " ++ f.message)
              (some f.cls))) ∧
          ∀ g, f.inPlace? = some g → course.outcome = .error g := by
  intro nodes course
  have equation : e.evaluate true document =
      (e.execute true (e.resolving true) nodes []).andThen fun results =>
        .done (fill e.index true document results) := e.evaluate_eq_execute document []
  have account := e.execute_account true nodes [] past
  have split := (congrArg (·.after past) equation).trans (Run.after_andThen_done _ _ past)
  change course = _ at split
  refine ⟨equation, fun before call rest calls => ?_, fun all => ?_,
    fun before call rest f calls failed => ?_⟩
  · rw [split] at calls
    simpa using account.made before call rest calls
  · rw [split] at all ⊢
    obtain ⟨count, outcome⟩ := account.complete all
    exact ⟨count, by rw [outcome]; rfl⟩
  · rw [split] at calls ⊢
    obtain ⟨last, outcome⟩ := account.broken before call rest f calls failed
    refine ⟨last, fun own => ?_, fun foreign told => ?_, fun g instead => ?_⟩
    · rw [outcome, callFailure_of_own own]
      rfl
    · rw [outcome, callFailure_of_foreign foreign told]
      rfl
    · rw [outcome, callFailure_of_inPlace? instead]
      rfl

/-- The class of the failure that an outcome is, if it is one. -/
def failureClass? {α : Type} : Except Failure α → Option FailureClass
  | .ok _ => none
  | .error f => some f.cls

/-- The small functions under their usual tags, as far as they take part. -/
def subscripting : Engine := ⟨Sample.call, false, Sample.config, .null, [("$get", "get")]⟩

/-- Looking up a key of 4301 digits in a mapping that is empty. -/
def longKey : Value :=
  Sample.calling "get" (.list [.int (Nat.pow 10 Value.maxDigits), .mapping []])

/-- The key is missing, but no failure of the call comes of this: asking for the words of the fault,
which hold the key, is the fault that leaves the run. -/
theorem longKey_isNotTold :
    let course := (subscripting.evaluate true longKey).after []
    course.calls.map (fun call => (call.name, failureClass? call.outcome)) =
        [("get", some .keyError)] ∧
      failureClass? course.outcome = some .valueError := by
  decide +kernel

end Engine

end LiveDoc
