import LiveDoc.Proofs.CallNodes
import LiveDoc.Proofs.DecodedValues
import LiveDoc.Proofs.EngineFailures
import LiveDoc.Proofs.StandardCalls

/-!
# Engines with standard functions

An engine whose functions are standard and whose data are plain is calm on plain values, in both ways of
going through a document: it is quiet, and the value that it makes is plain, unless a call comes to what
is not plain. In particular it revives the text of a document calmly, in either mode.
-/

namespace LiveDoc

open Value

/-- Whether an invocation keeps to plain values: its function returns nothing to call but what is due, and
a plain value comes of it. -/
def Invocation.keepsPlain (sets : Bool) (call : Invocation) : Bool :=
  (match call.returned with
    | .ok v => !v.isCallable || v.isDue
    | .error _ => true) &&
  (match call.outcome with
    | .ok v => v.isPlain sets
    | .error _ => true)

namespace Invocation

variable {sets : Bool} {call : Invocation} {v : Value}

theorem isDue_of_keepsPlain (keeps : call.keepsPlain sets = true) (returned : call.returned = .ok v) :
    v.isCallable = true → v.isDue = true := by
  intro callable
  have first := (Bool.and_eq_true_iff.mp keeps).1
  simpa [returned, callable] using first

theorem isPlain_of_keepsPlain (keeps : call.keepsPlain sets = true) (came : call.outcome = .ok v) :
    v.isPlain sets = true := by
  have second := (Bool.and_eq_true_iff.mp keeps).2
  simpa [came] using second

end Invocation

/-- An engine with another way to call functions. -/
def Engine.over (e : Engine) (other : Caller) : Engine := { e with call := other }

/-- Whether the functions of an engine are standard and its data plain, and calls are the twins of those
of another caller. -/
structure Engine.Standard (sets : Bool) (e : Engine) (other : Caller) : Prop where
  serves : Caller.Serves sets e.call other
  functions : ∀ f ∈ e.config.functions, ∃ n : StandardName, f.2 = n.value
  data : e.data.isPlain sets = true

/-- Whether a run of an engine is calm, ends with values of a kind, and tells its failures. -/
abbrev Run.Calms {α : Type} (sets : Bool) (kind : α → Prop) (r twin : Run α) : Prop :=
  r.Calm (·.keepsPlain sets) kind Failure.IsTold twin

/-- What is told of a failure can itself be told. -/
theorem Engine.isTold_callFailure (name : String) (arguments : List Value) {f : Failure}
    (told : f.IsTold) : (callFailure name arguments f).IsTold := by
  unfold callFailure
  split
  · exact told
  · rw [show f.inPlace? = none from told]
    rfl

namespace Engine

variable {sets : Bool} {e : Engine} {other : Caller} (standard : e.Standard sets other)
include standard

/-- The function of a name is called quietly; where there is none, nothing is. -/
theorem Standard.function (name : String) (arguments : List Value) :
    (e.call ((e.config.functions.lookup name).getD .null) arguments).Quiet (fun _ => True)
      Failure.IsTold (other ((e.config.functions.lookup name).getD .null) arguments) := by
  cases found : e.config.functions.lookup name with
  | none => exact standard.serves.absent arguments
  | some f =>
    obtain ⟨before, after, split, -⟩ := List.lookup_eq_some_iff.mp found
    obtain ⟨n, rfl⟩ := standard.functions (name, f) (by simp [split])
    exact standard.serves.standard n arguments

/-- Applying what a standard function returned to the data is quiet. -/
theorem quiet_applyToData (name : String) {v : Value} (due : v.isCallable = true → v.isDue = true) :
    (e.applyToData name v).Quiet (fun _ => True) Failure.IsTold
      ((e.over other).applyToData name v) := by
  unfold applyToData
  by_cases applied : (e.config.callReturned.truthy && v.isCallable) = true
  · have again : ((e.over other).config.callReturned.truthy && v.isCallable) = true := applied
    rw [if_pos applied, if_pos again]
    have own := due (Bool.and_eq_true_iff.mp applied).2
    exact Run.quiet_andThen (quiet_trace _ _) fun _ _ => standard.serves.due v e.data own standard.data
  · have again : ¬((e.over other).config.callReturned.truthy && v.isCallable) = true := applied
    rw [if_neg applied, if_neg again]
    exact Run.quiet_done trivial

/-- Invoking a function is calm. -/
theorem calm_invoke (name : String) (arguments : List Value) :
    (e.invoke name arguments).Calms sets (·.isPlain sets = true)
      ((e.over other).invoke name arguments) := by
  refine Run.calm_andThen (quiet_trace _ _).calm fun _ _ => Run.calm_handle_fail ?_ fun f told =>
    isTold_callFailure name arguments told
  exact Run.calm_invocation (standard.function name _)
    (fun call keeps v returned => call.isDue_of_keepsPlain keeps returned)
    (fun call keeps v came => call.isPlain_of_keepsPlain keeps came)
    (fun v due => quiet_applyToData standard name due)

omit standard

/-- Evaluating the items of a list is calm if it is for each of them. -/
theorem calm_evaluateAll {deep : Bool} {xs : List Value}
    (items : ∀ x ∈ xs, (e.evaluate deep x).Calms sets (·.isPlain sets = true)
      ((e.over other).evaluate deep x)) :
    (e.evaluateAll deep xs).Calms sets (allPlain sets · = true)
      ((e.over other).evaluateAll deep xs) := by
  induction xs with
  | nil => exact Run.calm_done rfl
  | cons x xs ih =>
    have rest := ih fun y inside => items y (List.mem_cons_of_mem x inside)
    exact Run.calm_andThen (items x List.mem_cons_self) fun y own =>
      Run.calm_andThen rest fun ys all =>
        Run.calm_done (Bool.and_eq_true_iff.mpr ⟨own, all⟩)

/-- So it is for the values of entries whose keys are plain. -/
theorem calm_evaluateEntries {es : Entries} (keys : entriesPlain sets es = true)
    (values : ∀ entry ∈ es, (e.evaluate true entry.2).Calms sets (·.isPlain sets = true)
      ((e.over other).evaluate true entry.2)) :
    (e.evaluateEntries true es).Calms sets (entriesPlain sets · = true)
      ((e.over other).evaluateEntries true es) := by
  induction es with
  | nil => exact Run.calm_done rfl
  | cons entry es ih =>
    obtain ⟨⟨key, -⟩, others⟩ := entriesPlain_cons.mp keys
    have rest := ih others fun other inside => values other (List.mem_cons_of_mem entry inside)
    refine Run.calm_andThen (values entry List.mem_cons_self) fun y own =>
      Run.calm_andThen rest fun fs all => Run.calm_done ?_
    exact entriesPlain_cons.mpr ⟨⟨key, own⟩, all⟩

include standard

/-- Evaluating a plain value is calm. -/
theorem calm_evaluate (deep : Bool) (v : Value) (whole : v.isPlain sets = true) :
    (e.evaluate deep v).Calms sets (·.isPlain sets = true) ((e.over other).evaluate deep v) := by
  induction v using documentInduction e.index with
  | call v name source call ih =>
    have given : ∀ a ∈ normalizeArguments source, a.isPlain sets = true := by
      obtain ⟨key, rfl, -⟩ := callNode?_eq_some.mp call
      have inner : source.isPlain sets = true := by
        simpa [isPlain, entriesPlain] using whole
      intro a argument
      unfold normalizeArguments at argument
      split at argument
      · exact allPlain_iff.mp inner a argument
      · exact allPlain_iff.mp inner a argument
      · rwa [List.mem_singleton.mp argument]
    rw [evaluate_of_callNode e call, evaluate_of_callNode (e.over other) call]
    exact Run.calm_andThen (calm_evaluateAll fun a argument => ih a argument (given a argument))
      fun arguments _ => calm_invoke standard name arguments
  | list xs ih | tuple xs ih =>
    have items := calm_evaluateAll fun x inside => ih x inside (allPlain_iff.mp whole x inside)
    cases deep with
    | true => exact Run.calm_andThen items fun ys all => Run.calm_done all
    | false => exact Run.calm_done whole
  | mapping es literal ih =>
    cases deep with
    | true =>
      have values := fun entry inside => ih entry inside (entriesPlain_iff.mp whole entry inside).2
      rw [evaluate_mapping e literal, evaluate_mapping (e.over other) literal]
      exact Run.calm_andThen (calm_evaluateEntries whole values) fun fs all =>
        Run.calm_done all
    | false =>
      rw [evaluate_shallow e literal, evaluate_shallow (e.over other) literal]
      exact Run.calm_done whole
  | leaf v leaf =>
    rw [evaluate_leaf e leaf, evaluate_leaf (e.over other) leaf]
    exact Run.calm_done whole

/-! ## Readers -/

open Json (Tree)

omit standard

mutual

/-- Reviving the objects of a tree is calm. -/
theorem calm_resolve (standard : e.Standard sets other) : ∀ t : Tree,
    (t.resolve e.revive).Calms sets (·.isPlain sets = true) (t.resolve (e.over other).revive)
  | .array ts =>
    Run.calm_andThen (calm_resolveList standard ts) fun _ all => Run.calm_done all
  | .object ms =>
    Run.calm_andThen (calm_resolveMembers standard ms) fun _ all =>
      calm_evaluate standard false _ (Entries.entriesPlain_ofPairs all)
  | .null | .bool _ | .int _ | .float _ | .text _ => Run.calm_done rfl

theorem calm_resolveList (standard : e.Standard sets other) : ∀ ts : List Tree,
    (Tree.resolveList e.revive ts).Calms sets (allPlain sets · = true)
      (Tree.resolveList (e.over other).revive ts)
  | [] => Run.calm_done rfl
  | t :: ts => Run.calm_andThen (calm_resolve standard t) fun _ own =>
    Run.calm_andThen (calm_resolveList standard ts) fun _ all =>
      Run.calm_done (Bool.and_eq_true_iff.mpr ⟨own, all⟩)

theorem calm_resolveMembers (standard : e.Standard sets other) : ∀ ms : List (String × Tree),
    (Tree.resolveMembers e.revive ms).Calms sets (entriesPlain sets · = true)
      (Tree.resolveMembers (e.over other).revive ms)
  | [] => Run.calm_done rfl
  | (_, t) :: ms => Run.calm_andThen (calm_resolve standard t) fun _ own =>
    Run.calm_andThen (calm_resolveMembers standard ms) fun _ all =>
      Run.calm_done (Bool.and_eq_true_iff.mpr ⟨own, all⟩)

end

include standard

/-- Reading JSON text is calm. -/
theorem calm_readWith (source : Value) :
    (Document.readWith e.revive source).Calm (·.keepsPlain sets) (·.isPlain sets = true)
      (fun _ => True) (Document.readWith (e.over other).revive source) := by
  have any (s : String) (_ : Document.contents Document.defaultEncoding source = .ok s) : True :=
    trivial
  refine Run.calm_andThen (Run.quiet_ofExcept any fun _ _ => trivial).calm fun s _ => ?_
  cases read : Json.read s.toList with
  | ok t =>
    rw [decodeWith_revive _ read, decodeWith_revive _ read]
    exact (calm_resolve standard t).mono (fun _ whole => whole) fun _ _ => trivial
  | error stop =>
    rw [decodeWith_unread _ read, decodeWith_unread _ read]
    exact Run.calm_andThen
      ((calm_resolveList standard stop.closed).mono (fun _ all => all) fun _ _ => trivial)
        fun _ _ => (Run.quiet_fail trivial).calm

/-- Reviving a document that decodes to a plain value is calm in either mode. Only reading it fails with
what a call could not tell. -/
theorem calm_run (mode : Mode) {document : Value}
    (read : ∀ v, tree document e.config = .ok v → v.isPlain sets = true) :
    (e.run mode document).Calm (·.keepsPlain sets) (·.isPlain sets = true) (fun _ => True)
      ((e.over other).run mode document) := by
  cases mode with
  | driverFed =>
    have any (source : Value) (_ : jsonSource document e.config = .ok source) : True := trivial
    exact Run.calm_andThen (Run.quiet_ofExcept any fun _ _ => trivial).calm fun source _ =>
      calm_readWith standard source
  | selfDriven =>
    exact Run.calm_andThen (Run.quiet_ofExcept read fun _ _ => trivial).calm fun v whole =>
      (calm_evaluate standard true v whole).mono (fun _ own => own) fun _ _ => trivial

end Engine

end LiveDoc
