import LiveDoc.Proofs.Evaluation
import LiveDoc.Proofs.Extension
import LiveDoc.Proofs.Finding
import LiveDoc.Proofs.Samples
import LiveDoc.Proofs.StandardSession

/-!
# Deferred lookups

A document can look up a label in a value that it holds, or leave the lookup to be done in the data.
Where the value and the data are the same, both come to the same value or fail for the same reason. One
exception is a label that names a method: the deferred lookup comes to the method itself, while a call
that finds one has a callable result, which is applied to the data. The other is a label whose text
would show an integer of too many digits, as a deferred lookup is named after its label. This holds
whichever attributes values have, and whatever their methods do.
-/

namespace LiveDoc

open Value

/-- Two outcomes are the same value, or failures of calls that have the same kind of cause. -/
inductive EndsAlike : Except Failure Value → Except Failure Value → Prop where
  | value (v : Value) : EndsAlike (.ok v) (.ok v)
  | failure {name other : Value} {arguments others : List Value} {message further : String}
      (cause : FailureClass) :
      EndsAlike (.error (.evaluation name arguments message (some cause)))
        (.error (.evaluation other others further (some cause)))

theorem EndsAlike.cause_eq {name other : Value} {arguments others : List Value}
    {message further : String} {cause reason : FailureClass}
    (alike : EndsAlike (.error (.evaluation name arguments message (some cause)))
      (.error (.evaluation other others further (some reason)))) : cause = reason := by
  cases alike
  rfl

namespace Engine

variable {e : Engine} {name : String} {arguments : List Value} {v : Value}

/-! ## Calls that depend on nothing shown before -/

/-- An invocation of a function whose result depends on nothing shown before returns that result. -/
theorem exists_answer {result : Except Fault Value}
    (called : e.call ((e.config.functions.lookup name).getD .null) (e.passed arguments) =
      Run.ofFault result) :
    ∃ call before between, e.Answers call before between ∧
      call.returned = result.mapError Failure.fault ∧
      (e.invoke name arguments).outcome = call.outcome.mapError (callFailure name arguments) := by
  obtain ⟨call, before, between, -, named, given, answers, outcome⟩ := e.invoke_course name arguments []
  refine ⟨call, before, between, answers, ?_, outcome⟩
  rw [answers.returned, named, given, called]
  cases result <;> rfl

/-- A call whose function fails comes to the failure of the call. -/
theorem invoke_of_fault {f : Fault}
    (called : e.call ((e.config.functions.lookup name).getD .null) (e.passed arguments) =
      Run.ofFault (.error f)) :
    (e.invoke name arguments).outcome = .error (callFailure name arguments (.fault f)) := by
  obtain ⟨call, before, between, answers, returned, outcome⟩ := exists_answer called
  rw [outcome, answers.failed _ returned]
  rfl

/-- A call whose function returns a plain value comes to it. -/
theorem invoke_of_plain
    (called : e.call ((e.config.functions.lookup name).getD .null) (e.passed arguments) =
      Run.ofFault (.ok v)) (plain : e.defers v = false) :
    (e.invoke name arguments).outcome = .ok v := by
  obtain ⟨call, before, between, answers, returned, outcome⟩ := exists_answer called
  rw [outcome, answers.plain v returned plain]
  rfl

/-- A call whose function returns a callable value comes to what that comes to for the data, after what
was shown before it. -/
theorem invoke_of_callable
    (called : e.call ((e.config.functions.lookup name).getD .null) (e.passed arguments) =
      Run.ofFault (.ok v)) (deferred : e.defers v = true) :
    ∃ past, (e.invoke name arguments).outcome =
      ((e.call v [e.data]).after past).outcome.mapError (callFailure name arguments) := by
  obtain ⟨call, before, between, answers, returned, outcome⟩ := exists_answer called
  exact ⟨between, by rw [outcome, answers.deferred v returned deferred]⟩

/-- If that depends on nothing shown before, it is the result. -/
theorem invoke_of_deferred {result : Except Fault Value}
    (called : e.call ((e.config.functions.lookup name).getD .null) (e.passed arguments) =
      Run.ofFault (.ok v)) (deferred : e.defers v = true)
    (applied : e.call v [e.data] = Run.ofFault result) :
    (e.invoke name arguments).outcome =
      result.mapError fun f => callFailure name arguments (.fault f) := by
  obtain ⟨past, outcome⟩ := invoke_of_callable called deferred
  rw [outcome, applied]
  cases result <;> rfl

end Engine

namespace Value

/-! ## Documents of JSON's kinds -/

/-- Whether a value is of one of the kinds that JSON has. -/
def isJsonKind : Value → Bool
  | .null | .bool _ | .int _ | .float _ | .text _ | .list _ | .mapping _ => true
  | _ => false

/-- Whether everything in a value is of those kinds. -/
def HasJsonKinds (v : Value) : Prop := ∀ part, v.Contains part → part.isJsonKind = true

variable {d v label : Value}

theorem HasJsonKinds.part (kinds : d.HasJsonKinds) (inside : v ∈ d.parts) :
    v.isJsonKind = true :=
  kinds v (Contains.of_part inside v.contains_self)

theorem hasJsonKinds_iff :
    d.HasJsonKinds ↔ d.isJsonKind = true ∧ ∀ x ∈ d.parts, x.HasJsonKinds := by
  constructor
  · intro kinds
    exact ⟨kinds d d.contains_self, fun x inside part held => kinds part (held.of_part inside)⟩
  · rintro ⟨kind, parts⟩ part held
    rcases contains_iff.mp held with rfl | ⟨x, inside, held⟩
    · exact kind
    · exact parts x inside part held

/-- A value of those kinds cannot be called. -/
theorem isCallable_of_isJsonKind (kind : v.isJsonKind = true) : v.isCallable = false := by
  cases v <;> first | rfl | cases kind

/-- Whether a value is looked up in by its attributes: it is neither a container nor nothing. -/
def hasAttributes : Value → Bool
  | .mapping _ | .list _ | .tuple _ | .null => false
  | _ => true

/-- Whether a label is the name of an attribute of a value that can be called. -/
def NamesMethod (attributes : Attributes) (d label : Value) : Prop :=
  ∃ name, label = .text name ∧ d.hasAttributes = true ∧ (attributes.find d name).isCallable = true

variable {attributes : Attributes}

/-- A lookup of a name finds the attribute of that name. -/
theorem lookUp_attribute (has : d.hasAttributes = true) (name : String) :
    d.lookUp (.text name) attributes = .ok (attributes.find d name) := by
  cases d <;> first | rfl | cases has

/-- A lookup finds nothing, a part of the value, or the attribute that the label names. -/
theorem lookUp_cases (found : d.lookUp label attributes = .ok v) :
    v = .null ∨ v ∈ d.parts ∨
      ∃ name, label = .text name ∧ d.hasAttributes = true ∧ v = attributes.find d name := by
  unfold lookUp at found
  split at found
  case h_1 es =>
    cases type : label.unhashable? with
    | some t =>
      simp only [lookupKey, type, bind, Except.bind] at found
      contradiction
    | none =>
      simp only [lookupKey, type, bind, Except.bind] at found
      obtain rfl := Except.ok.inj found
      cases held : Entries.get? es label with
      | none => exact .inl rfl
      | some x => exact .inr (.inl (mem_of_get? held))
  case h_2 | h_3 =>
    rcases mem_of_itemUnder found with rfl | inside
    · exact .inl rfl
    · exact .inr (.inl inside)
  case h_5 name mapping list tuple null =>
    have has : d.hasAttributes = true := by
      cases d with
      | mapping es => exact (mapping es rfl).elim
      | list xs => exact (list xs rfl).elim
      | tuple xs => exact (tuple xs rfl).elim
      | null => exact (null rfl).elim
      | _ => rfl
    exact .inr (.inr ⟨_, rfl, has, (Except.ok.inj found).symm⟩)
  all_goals exact .inl (Except.ok.inj found).symm

/-- In a value of those kinds, what is found can be called exactly if the label names a method. -/
theorem isCallable_lookUp_iff (kinds : d.HasJsonKinds) (found : d.lookUp label attributes = .ok v) :
    v.isCallable = true ↔ d.NamesMethod attributes label := by
  constructor
  · intro callable
    rcases lookUp_cases found with rfl | part | ⟨name, rfl, has, rfl⟩
    · contradiction
    · rw [isCallable_of_isJsonKind (kinds.part part)] at callable
      contradiction
    · exact ⟨name, rfl, has, callable⟩
  · rintro ⟨name, rfl, has, callable⟩
    obtain rfl := Except.ok.inj (found.symm.trans (lookUp_attribute has name))
    exact callable

/-- A label whose text would show an integer of too many digits names no method. -/
theorem not_namesMethod_of_oversized (oversized : label.showsOversized = true) :
    ¬ d.NamesMethod attributes label := by
  rintro ⟨name, rfl, -⟩
  contradiction

end Value

namespace Session

variable {s : Surroundings} {format : Format} {d label v : Value}

/-! ## The two calls -/

theorem call_getCurried (shown : label.showsOversized = false) :
    s.call (StandardName.value .getCurried) [label] =
      Run.ofFault (.ok (StandardName.deferred .libraryGet [label] ("get " ++ label.display))) := by
  have text : StandardName.textOf label = .ok label.display := by
    rw [StandardName.textOf, shown, if_neg Bool.false_ne_true]
  change (Run.done ()).andThen (fun _ =>
    Run.ofFault (StandardName.apply s.now .getCurried [label] s.attributes)) = _
  rw [Run.done_andThen, StandardName.apply, text]
  rfl

/-- A deferred lookup is named after its label, whose text must not show an integer of too many
digits. -/
theorem call_getCurried_of_oversized (oversized : label.showsOversized = true) :
    s.call (StandardName.value .getCurried) [label] = Run.ofFault (.error .oversizedInteger) := by
  have text : StandardName.textOf label = .error .oversizedInteger := by
    rw [StandardName.textOf, if_pos oversized]
  change (Run.done ()).andThen (fun _ =>
    Run.ofFault (StandardName.apply s.now .getCurried [label] s.attributes)) = _
  rw [Run.done_andThen, StandardName.apply, text]
  rfl

theorem call_get :
    s.call (StandardName.value .get) [label, d] = Run.ofFault (d.lookUp label s.attributes) := by
  change (Run.done ()).andThen (fun _ =>
    Run.ofFault (StandardName.apply s.now .get [label, d] s.attributes)) = _
  rw [Run.done_andThen, StandardName.apply]

theorem call_libraryGet (name : String) :
    s.call (StandardName.deferred .libraryGet [label] name) [d] =
      Run.ofFault (d.lookUp label s.attributes) := by
  change (Run.done ()).andThen (fun _ => (Run.done ()).andThen fun _ =>
    Run.ofFault (d.lookUp label s.attributes)) = _
  rw [Run.done_andThen, Run.done_andThen]

/-- A document that calls a standard function with resolved arguments. -/
theorem evaluate_call {tag name : String} {arguments : List Value}
    (named : standardIndex.lookup tag = some name)
    (resolved : Engine.callNodesAll standardIndex true arguments = []) :
    (engine s format d).evaluate true (.mapping [(.text tag, .list arguments)]) =
      (engine s format d).invoke name arguments := by
  have all : (engine s format d).evaluateAll true arguments = .done arguments :=
    Engine.evaluateAll_of_resolved (fun x _ => Engine.evaluate_of_resolved _ x) resolved
  have own : (engine s format d).index.lookup tag = some name := named
  rw [Engine.evaluate, Engine.entryNode, own, all]
  exact Run.done_andThen _ _

/-- The call that leaves the lookup of a label to be done in the data. -/
def getLater (label : Value) : Value := .mapping [(.text "$getCurried", .list [label])]

/-- The call that looks a label up in a value. -/
def getNow (label d : Value) : Value := .mapping [(.text "$get", .list [label, d])]

/-- What a document comes to under the data with the standard functions. -/
def comesTo (s : Surroundings) (format : Format) (data document : Value) : Except Failure Value :=
  ((engine s format data).evaluate true document).outcome

section

variable (resolved : Engine.callNodes standardIndex true label = [])
include resolved

theorem comesTo_getLater :
    comesTo s format d (getLater label) =
      ((engine s format d).invoke "getCurried" [label]).outcome := by
  have all : Engine.callNodesAll standardIndex true [label] = [] := by
    rw [Engine.callNodesAll, resolved]
    rfl
  have named : standardIndex.lookup "$getCurried" = some "getCurried" := rfl
  rw [comesTo, getLater, evaluate_call named all]

theorem comesTo_getLater_of_shown (shown : label.showsOversized = false) :
    comesTo s format d (getLater label) =
      (d.lookUp label s.attributes).mapError fun f =>
        Engine.callFailure "getCurried" [label] (.fault f) := by
  rw [comesTo_getLater resolved]
  exact Engine.invoke_of_deferred (call_getCurried shown) rfl
    (call_libraryGet ("get " ++ label.display))

theorem comesTo_getLater_of_oversized (oversized : label.showsOversized = true) :
    comesTo s format d (getLater label) =
      .error (Engine.callFailure "getCurried" [label] (.fault .oversizedInteger)) := by
  rw [comesTo_getLater resolved]
  exact Engine.invoke_of_fault (call_getCurried_of_oversized oversized)

variable (unmoved : Engine.callNodes standardIndex true d = [])
include unmoved

theorem comesTo_getNow :
    comesTo s format d (getNow label d) =
      ((engine s format d).invoke "get" [label, d]).outcome := by
  have all : Engine.callNodesAll standardIndex true [label, d] = [] := by
    rw [Engine.callNodesAll, Engine.callNodesAll, resolved, unmoved]
    rfl
  have named : standardIndex.lookup "$get" = some "get" := rfl
  rw [comesTo, getNow, evaluate_call named all]

theorem comesTo_getNow_of_error {f : Fault} (looked : d.lookUp label s.attributes = .error f) :
    comesTo s format d (getNow label d) =
      .error (Engine.callFailure "get" [label, d] (.fault f)) := by
  rw [comesTo_getNow resolved unmoved]
  exact Engine.invoke_of_fault (call_get.trans (congrArg Run.ofFault looked))

theorem comesTo_getNow_of_plain (looked : d.lookUp label s.attributes = .ok v)
    (plain : v.isCallable = false) :
    comesTo s format d (getNow label d) = .ok v := by
  rw [comesTo_getNow resolved unmoved]
  exact Engine.invoke_of_plain (call_get.trans (congrArg Run.ofFault looked)) plain

theorem comesTo_getNow_of_callable (looked : d.lookUp label s.attributes = .ok v)
    (callable : v.isCallable = true) :
    ∃ past, comesTo s format d (getNow label d) =
      ((s.call v [d]).after past).outcome.mapError (Engine.callFailure "get" [label, d]) := by
  rw [comesTo_getNow resolved unmoved]
  exact Engine.invoke_of_callable (call_get.trans (congrArg Run.ofFault looked)) callable

omit resolved unmoved in
/-- A lookup that fails fails with what a call can tell. -/
theorem callFailure_of_lookUp {f : Fault} (looked : d.lookUp label s.attributes = .error f)
    (name : String) (arguments : List Value) :
    ∃ message, Engine.callFailure name arguments (.fault f) =
      .evaluation (.text name) arguments message (some f.cls) :=
  ⟨_, Engine.callFailure_of_foreign rfl (tells_lookUp d label s.attributes f looked)⟩

/-- Where the label's text cannot be written, only the lookup that is left for the data fails for that
reason. -/
theorem not_endsAlike_of_oversized (kinds : d.HasJsonKinds) (oversized : label.showsOversized = true) :
    ¬ EndsAlike (comesTo s format d (getLater label)) (comesTo s format d (getNow label d)) := by
  intro alike
  rw [comesTo_getLater_of_oversized resolved oversized] at alike
  cases looked : d.lookUp label s.attributes with
  | error f =>
    obtain ⟨message, told⟩ := callFailure_of_lookUp looked "get" [label, d]
    rw [comesTo_getNow_of_error resolved unmoved looked, told] at alike
    have same : Fault.oversizedInteger.cls = f.cls := alike.cause_eq
    have refused := lookUp_error.mp looked
    cases refused <;> contradiction
  | ok v =>
    have plain : v.isCallable = false :=
      Bool.eq_false_iff.mpr fun callable =>
        not_namesMethod_of_oversized oversized ((isCallable_lookUp_iff kinds looked).mp callable)
    rw [comesTo_getNow_of_plain resolved unmoved looked plain] at alike
    cases alike

/-- Where it can be written, both end alike exactly if what is found cannot be called, or gives itself
for the data. -/
theorem endsAlike_iff_of_shown (shown : label.showsOversized = false) :
    EndsAlike (comesTo s format d (getLater label)) (comesTo s format d (getNow label d)) ↔
      ∀ v, d.lookUp label s.attributes = .ok v → v.isCallable = true →
        comesTo s format d (getNow label d) = .ok v := by
  rw [comesTo_getLater_of_shown resolved shown]
  cases looked : d.lookUp label s.attributes with
  | error f =>
    obtain ⟨message, told⟩ := callFailure_of_lookUp looked "get" [label, d]
    obtain ⟨other, later⟩ := callFailure_of_lookUp looked "getCurried" [label]
    rw [comesTo_getNow_of_error resolved unmoved looked, told, Except.mapError, later]
    exact iff_of_true (.failure f.cls) fun v none => nomatch none
  | ok v =>
    cases callable : v.isCallable with
    | false =>
      rw [comesTo_getNow_of_plain resolved unmoved looked callable]
      refine iff_of_true (.value v) fun w same called => ?_
      obtain rfl := Except.ok.inj same
      cases callable.symm.trans called
    | true =>
      constructor
      · intro alike w same _
        obtain rfl := Except.ok.inj same
        generalize comesTo s format d (getNow label d) = ended at alike
        cases alike
        rfl
      · intro itself
        rw [itself v rfl callable]
        exact .value v

/-- A lookup that is left for the data finds what stands under the label there, unless the label's text
would show an integer of too many digits. Then it fails, and otherwise it ends like a lookup in the same
value exactly if what is found cannot be called, or is a method that gives itself for that value. What is
found can be called exactly if the label names a method, and a lookup now then ends as the method does
for the value, after what was shown before. -/
theorem getLater_endsAlike_iff (kinds : d.HasJsonKinds) :
    (∀ v, comesTo s format d (getLater label) = .ok v ↔
        label.showsOversized = false ∧ d.lookUp label s.attributes = .ok v) ∧
      (EndsAlike (comesTo s format d (getLater label)) (comesTo s format d (getNow label d)) ↔
        label.showsOversized = false ∧ ∀ v, d.lookUp label s.attributes = .ok v →
          v.isCallable = true → comesTo s format d (getNow label d) = .ok v) ∧
      ∀ v, d.lookUp label s.attributes = .ok v →
        (v.isCallable = true ↔ d.NamesMethod s.attributes label) ∧
        (v.isCallable = true → ∃ past, comesTo s format d (getNow label d) =
          ((s.call v [d]).after past).outcome.mapError (Engine.callFailure "get" [label, d])) := by
  refine ⟨fun v => ?_, ?_, fun v found => ⟨isCallable_lookUp_iff kinds found,
    comesTo_getNow_of_callable resolved unmoved found⟩⟩
  · cases shown : label.showsOversized with
    | true => simp [comesTo_getLater_of_oversized resolved shown]
    | false =>
      rw [comesTo_getLater_of_shown resolved shown]
      cases d.lookUp label s.attributes <;> simp [Except.mapError]
  · cases shown : label.showsOversized with
    | true =>
      have unlike : ¬ EndsAlike (comesTo s format d (getLater label))
          (comesTo s format d (getNow label d)) :=
        not_endsAlike_of_oversized resolved unmoved kinds shown
      simp [unlike]
    | false => simp [endsAlike_iff_of_shown resolved unmoved shown]

end

/-- Looking up a list in a mapping fails now as it does later. -/
theorem getLater_refused :
    (Value.mapping [(.text "a", .int 1)]).HasJsonKinds ∧
      EndsAlike
        (comesTo Sample.surroundings .json (.mapping [(.text "a", .int 1)]) (getLater (.list [])))
        (comesTo Sample.surroundings .json (.mapping [(.text "a", .int 1)])
          (getNow (.list []) (.mapping [(.text "a", .int 1)]))) := by
  have number : (Value.int 1).HasJsonKinds :=
    hasJsonKinds_iff.mpr ⟨rfl, fun x inside => absurd inside List.not_mem_nil⟩
  have kinds : (Value.mapping [(.text "a", .int 1)]).HasJsonKinds :=
    hasJsonKinds_iff.mpr ⟨rfl, fun x inside => List.mem_singleton.mp inside ▸ number⟩
  have refused : (Value.mapping [(.text "a", .int 1)]).lookUp (.list []) = .error (.unhashable "list") :=
    lookUp_error.mpr (.key rfl)
  refine ⟨kinds, (getLater_endsAlike_iff rfl rfl kinds).2.1.mpr ⟨rfl, fun v found => ?_⟩⟩
  cases found.symm.trans refused

/-- The method of a text is found later, and applied to that text now. -/
theorem getLater_method :
    comesTo Sample.surroundings .json (.text "abc") (getLater (.text "join")) =
        .ok (.routine (.method .join) [.text "abc"]) ∧
      comesTo Sample.surroundings .json (.text "abc") (getNow (.text "join") (.text "abc")) =
        .ok (.text "aabcbabcc") ∧
      ¬ EndsAlike (comesTo Sample.surroundings .json (.text "abc") (getLater (.text "join")))
        (comesTo Sample.surroundings .json (.text "abc") (getNow (.text "join") (.text "abc"))) := by
  have looked : (Value.text "abc").lookUp (.text "join") Sample.surroundings.attributes =
      .ok (.routine (.method .join) [.text "abc"]) := lookUp_attribute rfl "join"
  have method : comesTo Sample.surroundings .json (.text "abc") (getLater (.text "join")) =
      .ok (.routine (.method .join) [.text "abc"]) := by
    rw [comesTo_getLater_of_shown rfl rfl, looked]
    rfl
  have joined : Sample.surroundings.call (.routine (.method .join) [.text "abc"]) [.text "abc"] =
      Run.ofFault (.ok (.text "aabcbabcc")) := by
    rfl
  have applied : comesTo Sample.surroundings .json (.text "abc")
      (getNow (.text "join") (.text "abc")) = .ok (.text "aabcbabcc") := by
    have now : ∃ past, comesTo Sample.surroundings .json (.text "abc")
        (getNow (.text "join") (.text "abc")) =
          ((Sample.surroundings.call (.routine (.method .join) [.text "abc"]) [.text "abc"]).after
            past).outcome.mapError (Engine.callFailure "get" [.text "join", .text "abc"]) :=
      comesTo_getNow_of_callable rfl rfl looked rfl
    obtain ⟨past, ended⟩ := now
    rw [ended, joined]
    rfl
  refine ⟨method, applied, ?_⟩
  rw [method, applied]
  rintro ⟨⟩

end Session

end LiveDoc
