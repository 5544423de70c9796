import LiveDoc.Run

/-!
# Laws of runs

Joining runs is associative and has the run that shows nothing as its unit. A run that ends well is
followed by the run that its value chooses, which starts after everything shown so far; a run that
fails is followed by nothing.
-/

namespace LiveDoc

variable {α β γ : Type}

/-- A course that ended well, and then the one that follows it. -/
def Course.followedBy (first : Course α) (next : Course β) : Course β :=
  ⟨first.log ++ next.log, first.calls ++ next.calls, next.outcome⟩

/-- Whether a course ends well. -/
def Course.succeeds (course : Course α) : Bool :=
  match course.outcome with
  | .ok _ => true
  | .error _ => false

/-- A course that ends well ends with a value. -/
theorem Course.exists_ok {course : Course α} (succeeds : course.succeeds = true) :
    ∃ a, course.outcome = .ok a := by
  unfold Course.succeeds at succeeds
  split at succeeds
  · exact ⟨_, ‹_›⟩
  · contradiction

/-- A course that does not end well ends with a failure. -/
theorem Course.exists_error {course : Course α} (fails : course.succeeds = false) :
    ∃ f, course.outcome = .error f := by
  unfold Course.succeeds at fails
  split at fails
  · contradiction
  · exact ⟨_, ‹_›⟩

namespace Run

@[simp]
theorem after_done (a : α) (past : List Event) : (done a).after past = ⟨[], [], .ok a⟩ := rfl

@[simp]
theorem after_fail (f : Failure) (past : List Event) :
    (fail f : Run α).after past = ⟨[], [], .error f⟩ := rfl

/-- What follows a run that ends well starts after everything that run showed. -/
theorem after_andThen_of_ok {r : Run α} {past : List Event} {a : α}
    (ended : (r.after past).outcome = .ok a) (f : α → Run β) :
    (r.andThen f).after past =
      (r.after past).followedBy ((f a).after (past ++ (r.after past).log)) := by
  simp only [andThen, ended, Course.followedBy]

/-- Nothing follows a run that fails. -/
theorem after_andThen_of_error {r : Run α} {past : List Event} {e : Failure}
    (ended : (r.after past).outcome = .error e) (f : α → Run β) :
    (r.andThen f).after past = ⟨(r.after past).log, (r.after past).calls, .error e⟩ := by
  simp only [andThen, ended]

@[simp]
theorem done_andThen (a : α) (f : α → Run β) : (done a).andThen f = f a := by
  simp [andThen]

@[simp]
theorem andThen_done (r : Run α) : (r.andThen fun a => done a) = r := by
  ext1
  funext past
  simp only [andThen, after_done, List.append_nil]
  split <;> rename_i ended <;> rw [← ended]

/-- Joining runs is associative. -/
theorem andThen_assoc (r : Run α) (f : α → Run β) (g : β → Run γ) :
    (r.andThen f).andThen g = r.andThen fun a => (f a).andThen g := by
  ext1
  funext past
  cases ended : (r.after past).outcome with
  | error e =>
    have first : ((r.andThen f).after past).outcome = .error e := by
      rw [after_andThen_of_error ended]
    rw [after_andThen_of_error first, after_andThen_of_error ended, after_andThen_of_error ended]
  | ok a =>
    have first := after_andThen_of_ok ended f
    rw [after_andThen_of_ok ended]
    cases later : ((f a).after (past ++ (r.after past).log)).outcome with
    | error e =>
      rw [after_andThen_of_error later, after_andThen_of_error (by rw [first]; exact later), first]
      rfl
    | ok b =>
      rw [after_andThen_of_ok later, after_andThen_of_ok (by rw [first]; exact later), first]
      simp only [Course.followedBy, List.append_assoc]

/-- What only changes the value leaves the rest of the course alone. -/
theorem after_andThen_done (r : Run α) (g : α → β) (past : List Event) :
    (r.andThen fun a => done (g a)).after past =
      ⟨(r.after past).log, (r.after past).calls, (r.after past).outcome.map g⟩ := by
  cases course : r.after past with
  | mk log calls outcome => cases outcome <;> simp [andThen, course, Except.map]

/-- A handler that only turns a failure into another one leaves the rest of the course alone. -/
theorem after_handle_fail (r : Run α) (g : Failure → Failure) (past : List Event) :
    (r.handle fun f => fail (g f)).after past =
      { r.after past with outcome := (r.after past).outcome.mapError g } := by
  cases course : r.after past with
  | mk log calls outcome =>
    cases outcome <;> simp only [handle, course, after_fail, List.append_nil] <;> rfl

/-- An invocation takes the course of its function and of what completes the result, but tells one
invocation only. -/
theorem after_invocation (name : String) (arguments : List Value) (body : Run Value)
    (finish : Value → Run Value) (past : List Event) :
    (invocation name arguments body finish).after past =
      ⟨((body.andThen finish).after past).log,
        [⟨name, arguments, (body.after past).outcome, ((body.andThen finish).after past).outcome⟩],
        ((body.andThen finish).after past).outcome⟩ := by
  cases ended : (body.after past).outcome with
  | ok v =>
    rw [after_andThen_of_ok ended]
    simp only [invocation, ended, Course.followedBy]
  | error f =>
    rw [after_andThen_of_error ended]
    simp only [invocation, ended]

/-- The values with which a run may end. -/
def Yields (r : Run α) (a : α) : Prop := ∃ past, (r.after past).outcome = .ok a

/-- Only the values with which a run may end choose what follows it. -/
theorem andThen_congr {r : Run α} {f g : α → Run β} (same : ∀ a, r.Yields a → f a = g a) :
    r.andThen f = r.andThen g := by
  ext1
  funext past
  cases ended : (r.after past).outcome with
  | error e => rw [after_andThen_of_error ended, after_andThen_of_error ended]
  | ok a => rw [after_andThen_of_ok ended, after_andThen_of_ok ended, same a ⟨past, ended⟩]

theorem yields_done {a b : α} : (done a).Yields b ↔ a = b :=
  ⟨fun ⟨_, ended⟩ => Except.ok.inj ended, fun same => ⟨[], congrArg Except.ok same⟩⟩

/-- What joined runs yield, the second one yields after a value of the first one. -/
theorem yields_andThen {r : Run α} {f : α → Run β} {b : β} (yields : (r.andThen f).Yields b) :
    ∃ a, r.Yields a ∧ (f a).Yields b := by
  obtain ⟨past, ended⟩ := yields
  cases first : (r.after past).outcome with
  | error e =>
    rw [after_andThen_of_error first] at ended
    contradiction
  | ok a =>
    rw [after_andThen_of_ok first] at ended
    exact ⟨a, ⟨past, first⟩, ⟨_, ended⟩⟩

end Run

end LiveDoc
