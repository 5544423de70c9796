import LiveDoc.Library.Call
import LiveDoc.Proofs.Rendering
import LiveDoc.Proofs.StandardFaults

/-!
# Calls of standard functions

Functions of the standard library are quiet: they show nothing, remember nothing, and of the outside see
the clock and the attributes of values only. Some of them return a result that is due, as it is to be
applied to the data, and applying it to plain data is quiet as well. So it is for a method that a lookup
finds, if methods act on nothing. This is asked of values that stay as they are only, since a set, say,
is changed by methods of its own.
-/

namespace LiveDoc

/-- Whether a function is one that functions of the standard library return. -/
def ClosureName.isDue : ClosureName → Bool
  | .libraryGet => true
  | .libraryAlways => true
  | .libraryRender => true
  | _ => false

/-- Whether a value stays as it is: it is neither a container nor a buffer, and nothing to call. -/
def Value.isFixed : Value → Bool
  | .list _ | .tuple _ | .set _ | .mapping _ | .buffer _ => false
  | .routine .. | .deferred .. | .record .. => false
  | _ => true

/-- Whether a value is a deferred result of the standard library, or a method of values that stay as they
are. -/
def Value.isDue : Value → Bool
  | .deferred (.routine (.closure c) _) _ => c.isDue
  | .routine (.method _) captured => captured.all isFixed
  | _ => false

/-- Whether methods act on nothing: calling a method of values that stay as they are is quiet, if it is
given plain values. -/
def Attributes.ActOnNothing (sets : Bool) (attributes : Attributes) : Prop :=
  ∀ name captured arguments, captured.all Value.isFixed = true →
    Value.allPlain sets arguments = true →
      (attributes.call name captured arguments).Quiet (fun _ => True) Failure.IsTold
        (attributes.call name captured arguments)

/-- The methods that are listed do. -/
theorem Attributes.actOnNothing_listed (sets : Bool) : Attributes.listed.ActOnNothing sets :=
  fun _ _ _ _ _ => Run.quiet_done trivial

/-- Whether surroundings only tell values: their templates are rendered purely, and their methods act on
nothing. -/
structure Surroundings.Inert (sets : Bool) (s : Surroundings) : Prop where
  renders : RendersPurely sets s.render
  methods : s.attributes.ActOnNothing sets

/-- Whether two callers are quiet twins for standard functions and for what these leave to be applied to
plain data. What is not there is called quietly too, as it fails. -/
structure Caller.Serves (sets : Bool) (call other : Caller) : Prop where
  standard : ∀ (n : StandardName) (arguments : List Value),
    (call n.value arguments).Quiet (fun _ => True) Failure.IsTold (other n.value arguments)
  due : ∀ f data, f.isDue = true → data.isPlain sets = true →
    (call f [data]).Quiet (fun _ => True) Failure.IsTold (other f [data])
  absent : ∀ arguments,
    (call .null arguments).Quiet (fun _ => True) Failure.IsTold (other .null arguments)

/-- Whether two surroundings show the same to the standard library. -/
structure Surroundings.Alike (s other : Surroundings) : Prop where
  now : s.now = other.now
  tracing : s.tracing = other.tracing
  attributes : s.attributes = other.attributes
  render : s.render = other.render

/-- A check that reports what can be told is quiet. -/
theorem Run.quiet_check {result : Except Fault Unit} (tells : Tells result) :
    (Run.ofFault result).Quiet (fun _ => True) Failure.IsTold (Run.ofFault result) :=
  Run.quiet_ofFault (fun _ _ => trivial) tells

namespace Surroundings

theorem Alike.refl (s : Surroundings) : s.Alike s := ⟨rfl, rfl, rfl, rfl⟩

variable {s t : Surroundings} {call other : Caller}

theorem call_routine (r : Routine) (captured arguments : List Value) :
    s.call (.routine r captured) arguments =
      s.applyRoutine (s.callWithin 999) r captured arguments := rfl

/-- A deferred function is called like the function itself, from one depth further down. -/
theorem call_deferred (r : Routine) (captured : List Value) (label data : Value) :
    s.call (.deferred (.routine r captured) label) [data] =
      s.applyRoutine (s.callWithin 998) r captured [data] := by
  change (Run.done ()).andThen (fun _ => s.applyRoutine (s.callWithin 998) r captured [data]) = _
  rw [Run.done_andThen]

variable (alike : s.Alike t)
include alike

/-- Surroundings that show the same to the library are inert together. -/
theorem Inert.of_alike {sets : Bool} (inert : s.Inert sets) : t.Inert sets :=
  ⟨alike.render ▸ inert.renders, alike.attributes ▸ inert.methods⟩

/-- A standard function is quiet. -/
theorem quiet_standard (n : StandardName) (captured arguments : List Value) :
    (s.applyRoutine call (.standard n) captured arguments).Quiet (fun _ => True) Failure.IsTold
      (t.applyRoutine other (.standard n) captured arguments) := by
  refine Run.quiet_andThen (Run.quiet_check (Routine.tells_checkCount _ _)) fun _ _ => ?_
  rw [alike.now, alike.attributes]
  exact Run.quiet_ofFault (fun _ _ => trivial) (StandardName.tells_apply _ _ _ _)

/-- What a standard function leaves to be applied to plain data is quiet. -/
theorem quiet_due {sets : Bool} (renders : RendersPurely sets s.render) {c : ClosureName}
    (due : c.isDue = true) (captured : List Value) {data : Value} (plain : data.isPlain sets = true) :
    (s.applyRoutine call (.closure c) captured [data]).Quiet (fun _ => True) Failure.IsTold
      (t.applyRoutine other (.closure c) captured [data]) := by
  refine Run.quiet_andThen (Run.quiet_check (Routine.tells_checkCount _ _)) fun _ _ => ?_
  dsimp only
  unfold ClosureName.apply
  rw [← alike.attributes, ← alike.render]
  split
  case h_1 => exact Run.quiet_ofFault (fun _ _ => trivial) (Value.tells_lookUp _ _ _)
  case h_2 => exact Run.quiet_done trivial
  case h_3 held =>
    obtain rfl := (List.cons.inj held).1
    exact renders call other _ _ plain
  case h_14 => exact Run.quiet_done trivial
  all_goals cases due

/-- A method of values that stay as they are is quiet for plain data. -/
theorem quiet_method {sets : Bool} (methods : s.attributes.ActOnNothing sets) (m : MethodName)
    {captured : List Value} (fixed : captured.all Value.isFixed = true) {data : Value}
    (plain : data.isPlain sets = true) :
    (s.applyRoutine call (.method m) captured [data]).Quiet (fun _ => True) Failure.IsTold
      (t.applyRoutine other (.method m) captured [data]) := by
  refine Run.quiet_andThen (Run.quiet_check (Routine.tells_checkCount _ _)) fun _ _ => ?_
  have given : Value.allPlain sets [data] = true := by simp [Value.allPlain, plain]
  cases m with
  | other name =>
    change (s.attributes.call name captured [data]).Quiet _ _ (t.attributes.call name captured [data])
    rw [← alike.attributes]
    exact methods name captured [data] fixed given
  | _ => exact Run.quiet_ofFault (fun _ _ => trivial) (MethodName.tells_apply _ _ _)

/-- Calls are twins in surroundings that show the same to the library, if these are inert. -/
theorem call_serves {sets : Bool} (inert : s.Inert sets) : Caller.Serves sets s.call t.call where
  standard n arguments := by
    rw [StandardName.value, call_routine, call_routine]
    exact quiet_standard alike n [] arguments
  due f data due plain := by
    unfold Value.isDue at due
    split at due
    · rw [call_deferred, call_deferred]
      exact quiet_due alike inert.renders due _ plain
    · rw [call_routine, call_routine]
      exact quiet_method alike inert.methods _ due plain
    · cases due
  absent arguments := Run.quiet_fault rfl

end Surroundings

end LiveDoc
