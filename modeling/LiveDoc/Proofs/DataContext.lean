import LiveDoc.Proofs.Modes

/-!
# Data that nobody sees

The data of an engine reach functions in two ways: as their first argument if the data are bound, and
as the argument of a callable result. An engine that does neither takes the same course whatever its
data are. Two runs are kept together step by step for as long as the first of them only invokes
functions whose result stays as it is.
-/

namespace LiveDoc

namespace Run

variable {α β : Type} {kept : Invocation → Prop}

/-- Whether a run takes the same course as its twin unless it makes an invocation that is not kept
from the data. -/
def AgreesWith (kept : Invocation → Prop) (r twin : Run α) : Prop :=
  ∀ past, (∀ call ∈ (r.after past).calls, kept call) → r.after past = twin.after past

theorem agreesWith_refl (r : Run α) : AgreesWith kept r r := fun _ _ => rfl

/-- What follows runs that agree has to agree for every value of the first run. -/
theorem agreesWith_andThen {r twin : Run α} {f g : α → Run β} (first : AgreesWith kept r twin)
    (later : ∀ a, AgreesWith kept (f a) (g a)) :
    AgreesWith kept (r.andThen f) (twin.andThen g) := by
  intro past all
  cases ended : (r.after past).outcome with
  | error failure =>
    rw [after_andThen_of_error ended] at all ⊢
    have same := first past all
    rw [after_andThen_of_error (same ▸ ended), same]
  | ok a =>
    rw [after_andThen_of_ok ended] at all ⊢
    have same := first past fun call inside => all call (List.mem_append_left _ inside)
    have rest := later a (past ++ (r.after past).log) fun call inside =>
      all call (List.mem_append_right _ inside)
    rw [after_andThen_of_ok (same ▸ ended), ← same, rest]

/-- A handler that turns a failure into another one keeps agreement. -/
theorem agreesWith_handle_fail {r twin : Run α} (agrees : AgreesWith kept r twin)
    (g : Failure → Failure) :
    AgreesWith kept (r.handle fun f => fail (g f)) (twin.handle fun f => fail (g f)) := by
  intro past all
  rw [after_handle_fail] at all ⊢
  rw [after_handle_fail, agrees past all]

end Run

namespace Json.Tree

variable {kept : Invocation → Prop} {hook other : Value → Run Value}

mutual

/-- A tree is resolved alike by hooks that agree. -/
theorem agreesWith_resolve (hooks : ∀ v, (hook v).AgreesWith kept (other v)) :
    ∀ t : Tree, (t.resolve hook).AgreesWith kept (t.resolve other)
  | .array ts =>
    Run.agreesWith_andThen (agreesWith_resolveList hooks ts) fun _ => Run.agreesWith_refl _
  | .object ms => Run.agreesWith_andThen (agreesWith_resolveMembers hooks ms) fun _ => hooks _
  | .null | .bool _ | .int _ | .float _ | .text _ => Run.agreesWith_refl _

/-- The same for a list of trees. -/
theorem agreesWith_resolveList (hooks : ∀ v, (hook v).AgreesWith kept (other v)) :
    ∀ ts : List Tree, (resolveList hook ts).AgreesWith kept (resolveList other ts)
  | [] => Run.agreesWith_refl _
  | t :: ts =>
    Run.agreesWith_andThen (agreesWith_resolve hooks t) fun _ =>
      Run.agreesWith_andThen (agreesWith_resolveList hooks ts) fun _ => Run.agreesWith_refl _

/-- The same for the members of an object. -/
theorem agreesWith_resolveMembers (hooks : ∀ v, (hook v).AgreesWith kept (other v)) :
    ∀ ms : List (String × Tree), (resolveMembers hook ms).AgreesWith kept (resolveMembers other ms)
  | [] => Run.agreesWith_refl _
  | (_, t) :: ms =>
    Run.agreesWith_andThen (agreesWith_resolve hooks t) fun _ =>
      Run.agreesWith_andThen (agreesWith_resolveMembers hooks ms) fun _ => Run.agreesWith_refl _

end

end Json.Tree

/-- A text is read alike by hooks that agree, up to a fault in it too. -/
theorem Json.agreesWith_decodeWith {kept : Invocation → Prop} {hook other : Value → Run Value}
    (hooks : ∀ v, (hook v).AgreesWith kept (other v)) (s : String) :
    (decodeWith hook s).AgreesWith kept (decodeWith other s) := by
  unfold decodeWith
  cases read s.toList with
  | ok t => exact Run.agreesWith_handle_fail (Tree.agreesWith_resolve hooks t) _
  | error fault =>
    exact Run.agreesWith_andThen
      (Run.agreesWith_handle_fail (Tree.agreesWith_resolveList hooks fault.closed) _) fun _ =>
        Run.agreesWith_refl _

/-- Whether what a function returned stays as it is, since it is not callable or callable results are
left alone. -/
def Invocation.StaysPlain (c : Config) (call : Invocation) : Prop :=
  ∀ v, call.returned = .ok v → (c.callReturned.truthy && v.isCallable) = false

namespace Engine

/-- An engine with other data. -/
def withData (data : Value) (e : Engine) : Engine := { e with data := data }

variable {e : Engine} (data : Value) (unbound : e.config.bindData.truthy = false)

/-- A result that stays as it is is applied to no data. -/
theorem applyToData_of_plain (name : String) {v : Value}
    (plain : (e.config.callReturned.truthy && v.isCallable) = false) :
    e.applyToData name v = .done v := by
  simp [applyToData, plain]

include unbound

/-- An invocation that passes no data and applies no result to them is the same with other data. -/
theorem agreesWith_invoke (name : String) (arguments : List Value) :
    (e.invoke name arguments).AgreesWith (·.StaysPlain e.config)
      ((e.withData data).invoke name arguments) := by
  refine Run.agreesWith_andThen (Run.agreesWith_refl _) fun _ => Run.agreesWith_handle_fail ?_ _
  simp only [withData, unbound, Bool.false_eq_true, if_false]
  intro past all
  let body := e.call ((e.config.functions.lookup name).getD .null) arguments
  change (Run.invocation name arguments body (e.applyToData name)).after past =
    (Run.invocation name arguments body ((e.withData data).applyToData name)).after past
  change ∀ call ∈ ((Run.invocation name arguments body (e.applyToData name)).after past).calls,
    call.StaysPlain e.config at all
  rw [Run.after_invocation] at all ⊢
  rw [Run.after_invocation]
  cases ended : (body.after past).outcome with
  | error f => rw [Run.after_andThen_of_error ended, Run.after_andThen_of_error ended]
  | ok v =>
    have plain := all _ (List.mem_singleton_self _) v ended
    have other : (e.withData data).applyToData name v = .done v := applyToData_of_plain name plain
    rw [Run.after_andThen_of_ok ended, Run.after_andThen_of_ok ended,
      applyToData_of_plain name plain, other]

/-- Nor do other data change the execution of call nodes. -/
theorem agreesWith_execute (deep : Bool) (nodes : List CallNode) (prior : List Value) :
    (e.execute deep (e.resolving deep) nodes prior).AgreesWith (·.StaysPlain e.config)
      ((e.withData data).execute deep ((e.withData data).resolving deep) nodes prior) := by
  induction nodes generalizing prior with
  | nil => exact Run.agreesWith_refl _
  | cons node nodes ih =>
    refine Run.agreesWith_andThen (Run.agreesWith_refl _) fun arguments => ?_
    refine Run.agreesWith_andThen (agreesWith_invoke data unbound node.name arguments) fun v => ?_
    exact Run.agreesWith_andThen (ih _) fun _ => Run.agreesWith_refl _

/-- Nor the evaluation of a value. -/
theorem agreesWith_evaluate (deep : Bool) (v : Value) :
    (e.evaluate deep v).AgreesWith (·.StaysPlain e.config)
      ((e.withData data).evaluate deep v) := by
  rw [evaluate_eq_execute e v [], evaluate_eq_execute (e.withData data) v []]
  exact Run.agreesWith_andThen (agreesWith_execute data unbound deep _ []) fun _ =>
    Run.agreesWith_refl _

/-- Nor the run of a document, whoever drives it. -/
theorem agreesWith_run (mode : Mode) (document : Value) :
    (e.run mode document).AgreesWith (·.StaysPlain e.config)
      ((e.withData data).run mode document) := by
  cases mode with
  | driverFed =>
    refine Run.agreesWith_andThen (Run.agreesWith_refl _) fun source => ?_
    refine Run.agreesWith_andThen (Run.agreesWith_refl _) fun text => ?_
    exact Json.agreesWith_decodeWith (fun v => agreesWith_evaluate data unbound false v) text
  | selfDriven =>
    exact Run.agreesWith_andThen (Run.agreesWith_refl _) fun v =>
      agreesWith_evaluate data unbound true v

end Engine

/-- Data that nobody sees change nothing. If a configuration does not bind the data, and either leaves
callable results alone or no function that is invoked with the first data returns one, then a
transformation takes the same course with any other data: it shows the same events, invokes the same
functions with the same arguments and comes to the same outcome. -/
theorem transform_ignores_data (call : Caller) (tracing : Bool)
    (config document data other : Value) (overrides : Options) (c : Config) (past : List Event)
    (coerced : Config.coerce config overrides = .ok c) (unbound : c.bindData.truthy = false)
    (plain : c.callReturned.truthy = false ∨
      ∀ made ∈ ((transform call tracing config document data overrides).after past).calls,
        ∀ v, made.returned = .ok v → v.isCallable = false) :
    (transform call tracing config document data overrides).after past =
      (transform call tracing config document other overrides).after past := by
  have checked : ∀ d, transform call tracing config document d overrides =
      transformWith call tracing c document d := by
    intro d
    simp only [transform, coerced, Run.ofFault, Run.done_andThen]
  -- the engine is made last, so both transformations differ only in the run of their engines
  have split : ∀ d, transformWith call tracing c document d =
      ((Engine.diagnose call c).andThen fun _ => Engine.tagIndex call c).andThen fun index =>
        (Engine.trace tracing (Engine.modeLine c document)).andThen fun _ =>
          (Engine.run ⟨call, tracing, c, d, index⟩ (Mode.select document c) document) := by
    intro d
    simp only [transformWith, Engine.prepare, Engine.make, Run.andThen_assoc, Run.done_andThen]
    rfl
  have agrees : (transformWith call tracing c document data).AgreesWith (·.StaysPlain c)
      (transformWith call tracing c document other) := by
    rw [split, split]
    refine Run.agreesWith_andThen (Run.agreesWith_refl _) fun index => ?_
    refine Run.agreesWith_andThen (Run.agreesWith_refl _) fun _ => ?_
    exact Engine.agreesWith_run (e := ⟨call, tracing, c, data, index⟩) other unbound _ document
  rw [checked, checked]
  rw [checked] at plain
  refine agrees past fun made inside v returned => ?_
  rcases plain with left | results
  · rw [left, Bool.false_and]
  · rw [results made inside v returned, Bool.and_false]

/-- Whether no function of a course returned a callable value. -/
def Course.returnsPlain {α : Type} (course : Course α) : Bool :=
  course.calls.all fun call => match call.returned with
    | .ok v => !v.isCallable
    | .error _ => true

theorem Course.not_isCallable {α : Type} {course : Course α} (plain : course.returnsPlain = true) :
    ∀ call ∈ course.calls, ∀ v, call.returned = .ok v → v.isCallable = false := by
  intro call inside v returned
  have here := List.all_eq_true.mp plain call inside
  rw [returned] at here
  simpa using here

/-- Callable results are applied to the data in this configuration, but nothing in the packed document
returns one, so the data make no difference. -/
theorem packed_ignores_data :
    (transform Sample.call false Sample.config.toValue Engine.packed (.int 1) []).after [] =
      (transform Sample.call false Sample.config.toValue Engine.packed (.text "a") []).after [] :=
  transform_ignores_data Sample.call false Sample.config.toValue Engine.packed (.int 1) (.text "a") []
    Sample.config [] rfl rfl (.inr (Course.not_isCallable (by decide +kernel)))

end LiveDoc
