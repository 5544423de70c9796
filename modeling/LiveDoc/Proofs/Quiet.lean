import LiveDoc.Proofs.Tracing

/-!
# Quiet runs

A quiet run shows nothing but lines of the trace and takes the same course whatever was shown before it.
It tells nothing to the outside and remembers nothing, so what it comes to is a matter of the values that
it works on. Two runs that only differ in what they could have told or remembered are quiet twins: they
take one course. Joining quiet twins makes quiet twins; the kinds of the values and failures that they end
with are carried along, for the runs that follow.

A run that may come to call functions of which nothing is known is quiet only if it does not. Such a run
is calm: it is quiet once the invocations of one of its courses are among those that are known.
-/

namespace LiveDoc

/-- Whether a call can tell a failure of its function, so that nothing else is passed on in its place. -/
def Failure.IsTold (f : Failure) : Prop := f.inPlace? = none

/-- A course that shows lines of the trace only, and ends with values and failures of certain kinds only.
The failures of its invocations can be told. -/
structure Course.IsQuiet {α : Type} (kind : α → Prop) (fails : Failure → Prop) (course : Course α) :
    Prop where
  log : untraced course.log = []
  value : ∀ a, course.outcome = .ok a → kind a
  failure : ∀ f, course.outcome = .error f → fails f
  calls : ∀ call ∈ course.calls, ∀ f, call.outcome = .error f → f.IsTold

/-- Whether two runs are quiet twins: both take one quiet course, whatever was shown before them. -/
def Run.Quiet {α : Type} (kind : α → Prop) (fails : Failure → Prop) (r twin : Run α) : Prop :=
  ∃ course : Course α, (∀ past, r.after past = course) ∧ (∀ past, twin.after past = course) ∧
    course.IsQuiet kind fails

namespace Run

variable {α β : Type} {kind : α → Prop} {next : β → Prop} {fails : Failure → Prop} {r twin : Run α}

/-- Quiet twins are equal. -/
theorem Quiet.eq (quiet : r.Quiet kind fails twin) : r = twin := by
  obtain ⟨course, own, other, -⟩ := quiet
  ext1
  funext past
  rw [own, other]

/-- The course of a quiet run is quiet. -/
theorem Quiet.course (quiet : r.Quiet kind fails twin) (past : List Event) :
    (r.after past).IsQuiet kind fails := by
  obtain ⟨course, own, -, silent⟩ := quiet
  rwa [own]

/-- A quiet run that comes to a value comes to the one that it comes to from the start. -/
theorem Quiet.reached (quiet : r.Quiet kind fails twin) :
    r.Quiet (fun a => kind a ∧ ∀ past, (r.after past).outcome = .ok a) fails twin := by
  obtain ⟨course, own, other, silent⟩ := quiet
  exact ⟨course, own, other,
    { silent with value := fun a ended => ⟨silent.value a ended, fun past => own past ▸ ended⟩ }⟩

/-- A quiet run takes the course that it takes from the start. -/
theorem Quiet.after (quiet : r.Quiet kind fails twin) (past : List Event) :
    r.after past = r.after [] := by
  obtain ⟨course, own, -⟩ := quiet
  rw [own, own]

/-- Quiet runs that end in one way end in a wider one. -/
theorem Quiet.mono {wider : α → Prop} {further : Failure → Prop} (quiet : r.Quiet kind fails twin)
    (wide : ∀ a, kind a → wider a) (far : ∀ f, fails f → further f) :
    r.Quiet wider further twin := by
  obtain ⟨course, own, other, silent⟩ := quiet
  exact ⟨course, own, other, silent.log, fun a ended => wide a (silent.value a ended),
    fun f ended => far f (silent.failure f ended), silent.calls⟩

theorem quiet_done {a : α} (fits : kind a) : (done a).Quiet kind fails (done a) :=
  ⟨⟨[], [], .ok a⟩, fun _ => rfl, fun _ => rfl,
    { log := rfl
      value := fun _ same => Except.ok.inj same ▸ fits
      failure := fun _ failed => nomatch failed
      calls := fun _ inside => nomatch inside }⟩

theorem quiet_fail {f : Failure} (fits : fails f) : (fail f : Run α).Quiet kind fails (fail f) :=
  ⟨⟨[], [], .error f⟩, fun _ => rfl, fun _ => rfl,
    { log := rfl
      value := fun _ failed => nomatch failed
      failure := fun _ same => Except.error.inj same ▸ fits
      calls := fun _ inside => nomatch inside }⟩

theorem quiet_fault {f : Fault} (fits : fails (.fault f)) :
    (fault f : Run α).Quiet kind fails (fault f) := quiet_fail fits

/-- An operation on values is quiet. -/
theorem quiet_ofFault {result : Except Fault α} (fits : ∀ a, result = .ok a → kind a)
    (breaks : ∀ f, result = .error f → fails (.fault f)) :
    (ofFault result).Quiet kind fails (ofFault result) := by
  cases result with
  | ok a => exact quiet_done (fits a rfl)
  | error f => exact quiet_fault (breaks f rfl)

/-- An operation that reports failures is quiet. -/
theorem quiet_ofExcept {result : Except Failure α} (fits : ∀ a, result = .ok a → kind a)
    (breaks : ∀ f, result = .error f → fails f) :
    (ofExcept result).Quiet kind fails (ofExcept result) := by
  cases result with
  | ok a => exact quiet_done (fits a rfl)
  | error f => exact quiet_fail (breaks f rfl)

/-- Quiet runs that follow one another are quiet. -/
theorem quiet_andThen {f g : α → Run β} (first : r.Quiet kind fails twin)
    (later : ∀ a, kind a → (f a).Quiet next fails (g a)) :
    (r.andThen f).Quiet next fails (twin.andThen g) := by
  obtain ⟨course, own, other, silent⟩ := first
  cases ended : course.outcome with
  | error e =>
    have breaks (r : Run α) (f : α → Run β) (same : ∀ past, r.after past = course)
        (past : List Event) : (r.andThen f).after past = ⟨course.log, course.calls, .error e⟩ := by
      rw [after_andThen_of_error (same past ▸ ended), same]
    exact ⟨_, breaks r f own, breaks twin g other,
      { log := silent.log
        value := fun _ failed => nomatch failed
        failure := fun _ same => Except.error.inj same ▸ silent.failure e ended
        calls := silent.calls }⟩
  | ok a =>
    obtain ⟨rest, equal, alike, quiet⟩ := later a (silent.value a ended)
    have goes (r : Run α) (f : α → Run β) (same : ∀ past, r.after past = course)
        (rests : ∀ past, (f a).after past = rest) (past : List Event) :
        (r.andThen f).after past = course.followedBy rest := by
      rw [after_andThen_of_ok (same past ▸ ended), same, rests]
    refine ⟨_, goes r f own equal, goes twin g other alike, ?_, quiet.value, quiet.failure, ?_⟩
    · rw [Course.followedBy, untraced_append, silent.log, quiet.log, List.append_nil]
    · rw [Course.followedBy, List.forall_mem_append]
      exact ⟨silent.calls, quiet.calls⟩

/-- A handler that only turns a failure into another one keeps a run quiet. -/
theorem quiet_handle_fail {further : Failure → Prop} (quiet : r.Quiet kind fails twin)
    {g : Failure → Failure} (breaks : ∀ f, fails f → further (g f)) :
    (r.handle fun f => fail (g f)).Quiet kind further (twin.handle fun f => fail (g f)) := by
  obtain ⟨course, own, other, silent⟩ := quiet
  refine ⟨{ course with outcome := course.outcome.mapError g }, fun past => ?_, fun past => ?_,
    silent.log, fun a ended => ?_, fun f ended => ?_, silent.calls⟩
  · rw [after_handle_fail, own]
  · rw [after_handle_fail, other]
  · cases outcome : course.outcome with
    | error f =>
      rw [outcome] at ended
      contradiction
    | ok b =>
      rw [outcome] at ended
      exact silent.value a (outcome.trans ended)
  · cases outcome : course.outcome with
    | error e =>
      rw [outcome] at ended
      obtain rfl := Except.error.inj ended
      exact breaks e (silent.failure e outcome)
    | ok b =>
      rw [outcome] at ended
      contradiction

/-- An invocation is quiet if its function and what completes the result are, and can be told. -/
theorem quiet_invocation {kind next : Value → Prop} {body other : Run Value}
    {finish ending : Value → Run Value} (first : body.Quiet kind Failure.IsTold other)
    (later : ∀ v, kind v → (finish v).Quiet next Failure.IsTold (ending v)) (name : String)
    (arguments : List Value) :
    (invocation name arguments body finish).Quiet next Failure.IsTold
      (invocation name arguments other ending) := by
  obtain ⟨course, same, alike, silent⟩ := quiet_andThen first later
  obtain ⟨own, equal, twin, -⟩ := first
  refine ⟨⟨course.log, [⟨name, arguments, own.outcome, course.outcome⟩], course.outcome⟩,
    fun past => ?_, fun past => ?_, silent.log, silent.value, silent.failure, ?_⟩
  · rw [after_invocation, same, equal]
  · rw [after_invocation, alike, twin]
  · rw [List.forall_mem_singleton]
    exact silent.failure

/-- Runs for all items of a list are quiet if the one for each of them is. -/
theorem quiet_each {γ : Type} {f g : γ → Run α} {xs : List γ}
    (items : ∀ x ∈ xs, (f x).Quiet kind fails (g x)) :
    (each f xs).Quiet (fun ys => ∀ y ∈ ys, kind y) fails (each g xs) := by
  induction xs with
  | nil => exact quiet_done fun y inside => nomatch inside
  | cons x xs ih =>
    have first := items x List.mem_cons_self
    have rest := ih fun y inside => items y (List.mem_cons_of_mem x inside)
    refine quiet_andThen first fun y fits => quiet_andThen rest fun ys all => quiet_done ?_
    intro z inside
    rcases List.mem_cons.mp inside with rfl | member
    · exact fits
    · exact all z member

/-! ## Calm runs -/

/-- Whether two runs are quiet twins if all invocations in some course of the first one are known. -/
def Calm (known : Invocation → Bool) (kind : α → Prop) (fails : Failure → Prop) (r twin : Run α) :
    Prop :=
  ∀ past, (∀ call ∈ (r.after past).calls, known call = true) → r.Quiet kind fails twin

variable {known : Invocation → Bool}

theorem Quiet.calm (quiet : r.Quiet kind fails twin) : r.Calm known kind fails twin :=
  fun _ _ => quiet

theorem calm_done {a : α} (fits : kind a) : (done a).Calm known kind fails (done a) :=
  (quiet_done fits).calm

/-- Calm runs that end in one way end in a wider one. -/
theorem Calm.mono {wider : α → Prop} {further : Failure → Prop} (calm : r.Calm known kind fails twin)
    (wide : ∀ a, kind a → wider a) (far : ∀ f, fails f → further f) :
    r.Calm known wider further twin :=
  fun past all => (calm past all).mono wide far

/-- Calm runs that follow one another are calm. -/
theorem calm_andThen {f g : α → Run β} (first : r.Calm known kind fails twin)
    (later : ∀ a, kind a → (f a).Calm known next fails (g a)) :
    (r.andThen f).Calm known next fails (twin.andThen g) := by
  intro past all
  have own : ∀ call ∈ (r.after past).calls, known call = true := by
    intro call inside
    apply all
    cases ended : (r.after past).outcome with
    | error e => rwa [after_andThen_of_error ended]
    | ok a =>
      rw [after_andThen_of_ok ended]
      exact List.mem_append_left _ inside
  refine quiet_andThen (first past own).reached fun a reached => ?_
  refine later a reached.1 (past ++ (r.after past).log) fun call inside => all call ?_
  rw [after_andThen_of_ok (reached.2 past)]
  exact List.mem_append_right _ inside

/-- A handler that only turns a failure into another one keeps a run calm. -/
theorem calm_handle_fail {further : Failure → Prop} (calm : r.Calm known kind fails twin)
    {g : Failure → Failure} (breaks : ∀ f, fails f → further (g f)) :
    (r.handle fun f => fail (g f)).Calm known kind further (twin.handle fun f => fail (g f)) := by
  intro past all
  rw [after_handle_fail] at all
  exact quiet_handle_fail (calm past all) breaks

/-- An invocation is calm if its function is quiet, and what completes the result is if the invocation is
known. -/
theorem calm_invocation {kind next : Value → Prop} {body other : Run Value}
    {finish ending : Value → Run Value} {name : String} {arguments : List Value}
    (first : body.Quiet (fun _ => True) Failure.IsTold other)
    (returned : ∀ call, known call = true → ∀ v, call.returned = .ok v → kind v)
    (came : ∀ call, known call = true → ∀ v, call.outcome = .ok v → next v)
    (later : ∀ v, kind v → (finish v).Quiet (fun _ => True) Failure.IsTold (ending v)) :
    (invocation name arguments body finish).Calm known next Failure.IsTold
      (invocation name arguments other ending) := by
  intro past all
  rw [after_invocation] at all
  have here := all _ (List.mem_singleton.mpr rfl)
  have kinds := first.reached.mono (fun v reached => returned _ here v (reached.2 past)) fun _ told => told
  have quiet := quiet_invocation kinds later name arguments
  refine quiet.reached.mono (fun v reached => came _ here v ?_) fun _ told => told
  have ended := reached.2 past
  rwa [after_invocation] at ended

end Run

namespace Engine

/-- A line of the trace is quiet. -/
theorem quiet_trace {fails : Failure → Prop} (tracing : Bool) (line : String) :
    (trace tracing line).Quiet (fun _ => True) fails (trace tracing line) := by
  cases tracing with
  | false => exact Run.quiet_done trivial
  | true =>
    exact ⟨⟨[.trace line], [], .ok ()⟩, fun _ => rfl, fun _ => rfl,
      { log := rfl
        value := fun _ _ => trivial
        failure := fun _ failed => nomatch failed
        calls := fun _ inside => nomatch inside }⟩

end Engine

end LiveDoc
