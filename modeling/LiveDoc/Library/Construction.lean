import LiveDoc.Json.Writer
import LiveDoc.Library.Signature
import LiveDoc.Value.Sequence

/-!
# Construction

Deferred results and failures, made from arguments as a function would make them.
-/

namespace LiveDoc

namespace Value

/-- What makes a deferred result. -/
def deferral : String := "Deferred.__init__"

/-- The parameters of a deferred result: a callable value and its label. -/
def deferralParameters : Parameters := ⟨["fn", "name"], 1, false⟩

/-- A deferred result. Without a label of its own it has the name of the function. -/
def defer (fn label : Value) : Except Fault Value :=
  if fn.isCallable then
    .ok (.deferred fn
      (if label.truthy then label
      else match fn.functionName? with
        | some name => .text name
        | none => .null))
  else .error .deferredForm

/-- A deferred result of arguments. -/
def deferOf (arguments : List Value) : Except Fault Value := do
  let _ ← deferralParameters.check deferral 1 arguments.length
  defer (arguments.headD .null) (arguments.getD 1 .null)

end Value

namespace FailureClass

/-- The own class of a name. -/
def ofName? (name : String) : Option FailureClass := own.find? fun c => c.name == name

/-- What makes a failure of a class. -/
def maker (c : FailureClass) : String := c.name ++ ".__init__"

/-- The parameters of a failed call. -/
def callParameters : Parameters := ⟨["name", "args", "message"], 2, false⟩

/-- The parameters of a text that is no document. -/
def parseParameters : Parameters := ⟨["message", "line", "col"], 2, false⟩

end FailureClass

namespace Failure

/-- What a failure without parameters of its own says: its only argument, or all of them. -/
def textOfArguments (arguments : List Value) : String :=
  match arguments with
  | [] => ""
  | [v] => v.display
  | vs => (Value.tuple vs).display

/-- The fault of named arguments that a class does not take. -/
def refuseNamed (c : FailureClass) (named : List (String × Value)) : Except Fault Unit :=
  if named.isEmpty then .ok ()
  else .error (.chosen .typeError (c.name ++ "() takes no keyword arguments"))

/-- A failure of a class, made from arguments given by place and by name. -/
def make (c : FailureClass) (arguments : List Value) (named : List (String × Value)) :
    Except Fault Failure :=
  match c with
  | .evaluationError => do
    match ← FailureClass.callParameters.bind c.maker 1 arguments named with
    | [some name, resolved, message] =>
      let resolved := resolved.getD .null
      let items ← if resolved.truthy then resolved.items else .ok []
      let message := message.getD .null
      if !message.truthy && name.showsOversized then .error .oversizedInteger
      else .ok (.evaluation name items
        (if message.truthy then message.display else callFailed name) none)
    | _ => .error (.missingArguments c.maker ["name"])
  | .documentParseError => do
    match ← FailureClass.parseParameters.bind c.maker 1 arguments named with
    | [some message, line, column] =>
      .ok (.parse (.stated message.display (line.getD .null) (column.getD .null)))
    | _ => .error (.missingArguments c.maker ["message"])
  | .documentEncodeError => do
    let _ ← refuseNamed c named
    .ok (.encode (.stated (textOfArguments arguments)))
  | .documentError => do
    let _ ← refuseNamed c named
    .ok (.document (textOfArguments arguments))
  | .reviveError => do
    let _ ← refuseNamed c named
    .ok (.general (textOfArguments arguments))
  | c => do
    let _ ← refuseNamed c named
    .ok (.fault (.chosen c (textOfArguments arguments)))

end Failure

end LiveDoc
