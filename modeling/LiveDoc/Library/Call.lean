import LiveDoc.Library.Combinators
import LiveDoc.Library.Service
import LiveDoc.Library.Signature

/-!
# Calls

What every callable value does with its arguments. Callables call one another, so each body is given
the way to call others, and the depth of calls is bounded.
-/

namespace LiveDoc

namespace ClosureName

/-- The result of a function that another one returned, for the values it has captured. -/
def apply (call : Caller) (s : Surroundings) : ClosureName → List Value → List Value → Run Value
  | .libraryGet, [label], [data] => Run.ofFault (data.lookUp label s.attributes)
  | .libraryAlways, [v], _ => .done v
  | .libraryRender, [.text template], [data] => s.render call template data
  | .getCurried, [label], [data] => Run.ofFault (data.subscript label)
  | .always, [v], _ => .done v
  | .pick, [key], [data] => Run.ofFault (data.subscript key)
  | .pickUnnamed, [key], [data] => Run.ofFault (data.subscript key)
  | .deferTwice, [v], [data] => .done (CombinatorName.closure .deferTwiceInner [v, data])
  | .deferTwiceInner, [v, data], [later] => .done (.list [v, data, later])
  | .echoData, _, [data] => .done data
  | .laterBoom, [message], _ => .fault (.saying .valueError message message.display)
  | .withDocument, [config], [document] =>
    .done (CombinatorName.closure .withData [config, document])
  | .withData, [config, document], arguments =>
    transform call s.tracing config document (arguments.headD .null) []
  | _, _, _ => .done .null

end ClosureName

namespace TagName

/-- A text with its letters changed, and a dollar sign in front of it. -/
def shaped (method : String) (change : String → String) (name : Value) : Except Fault Value :=
  match name with
  | .text s => .ok (.text ("$" ++ change s))
  | .bytes _ => .error (.concatenation "str" name.qualifiedTypeName)
  | .buffer _ => .error (.concatenation "str" name.qualifiedTypeName)
  | v => .error (.noAttribute v.qualifiedTypeName method)

/-- The tag of a name. -/
def apply : TagName → List Value → List Value → Except Fault Value
  | .dollar, _, [name] => (Value.text "$").add name
  | .leading, [lead], [name] => lead.add name
  | .upper, _, [name] => shaped "upper" Text.upper name
  | .lower, _, [name] => shaped "lower" Text.lower name
  | .constant, _, _ => .ok (.text "$same")
  | _, _, names => .ok (names.headD .null)

end TagName

namespace MethodName

/-- The texts in a list; `index` is that of the first item. -/
def textsFrom : Nat → List Value → Except Fault (List String)
  | _, [] => .ok []
  | index, .text s :: vs => do .ok (s :: (← textsFrom (index + 1) vs))
  | index, v :: _ => .error (.joinItem index v.qualifiedTypeName)

/-- What a method of a value returns. -/
def apply : MethodName → List Value → List Value → Except Fault Value
  | .join, [.text separator], [v] =>
    match v.items? with
    | some xs => do .ok (.text (separator.intercalate (← textsFrom 0 xs)))
    | none => .error .joinIterable
  | .upper, [.text s], _ => .ok (.text (Text.upper s))
  | .date, [.moment m], _ => .ok (.date m.date)
  | _, _, _ => .ok .null

end MethodName

namespace Surroundings

/-- The result of a routine, for the values it has captured and its arguments. -/
def applyRoutine (s : Surroundings) (call : Caller) (r : Routine)
    (captured arguments : List Value) : Run Value :=
  (Run.ofFault (r.checkCount arguments.length)).andThen fun _ =>
    match r with
    | .standard n => Run.ofFault (n.apply s.now arguments s.attributes)
    | .combinator n => n.apply arguments
    | .closure n => n.apply call s captured arguments
    | .tag n => Run.ofFault (n.apply captured arguments)
    | .service n => Service.apply call s n arguments
    | .method (.other name) => s.attributes.call name captured arguments
    | .method n => Run.ofFault (n.apply captured arguments)

/-- The parameters of a deferred result. -/
def deferredParameters : Parameters := ⟨["data"], 0, false⟩

/-- The parameters of an engine. -/
def engineParameters : Parameters := ⟨["key", "value"], 0, false⟩

/-- The result of a callable value. An engine looks at one value whose children are revived. -/
def applyValue (s : Surroundings) (call : Caller) (f : Value) (arguments : List Value) :
    Run Value :=
  match f with
  | .routine r captured => s.applyRoutine call r captured arguments
  | .deferred fn _ =>
    (Run.ofFault (deferredParameters.check "Deferred.__call__" 1 arguments.length)).andThen
      fun _ => call fn arguments
  | v =>
    match Engine.ofValue? call s.tracing v with
    | some e =>
      (Run.ofFault (engineParameters.check "Reviver.__call__" 1 arguments.length)).andThen
        fun _ => e.revive (arguments.getD 1 .null)
    | none => .fault (.notCallable v.qualifiedTypeName)

/-- Calls within a bounded depth. -/
def callWithin (s : Surroundings) : Nat → Caller
  | 0 => fun _ _ => .fault .callDepth
  | depth + 1 => s.applyValue (s.callWithin depth)

/-- The depth of calls. -/
def maxDepth : Nat := 1000

/-- How callable values are called. -/
def call (s : Surroundings) : Caller := s.callWithin maxDepth

end Surroundings

end LiveDoc
