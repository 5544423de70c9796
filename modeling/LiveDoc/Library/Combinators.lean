import LiveDoc.Value.Arithmetic
import LiveDoc.Value.Sequence
import LiveDoc.Run

/-!
# Combinators

Small functions that build and forward values, return other functions, leave a note in the log, or
fail. They show what a document does with its functions.
-/

namespace LiveDoc

namespace CombinatorName

/-- The names under which documents call the functions, in order. -/
def registry : List (String × CombinatorName) :=
  [ ("add", .add), ("get", .get), ("getCurried", .getCurried), ("always", .always),
    ("count", .count), ("rec", .observe), ("boom", .boom), ("later_boom", .laterBoom),
    ("identity", .identity), ("pack", .pack), ("pair", .pair), ("opt", .opt),
    ("nothing", .nothing), ("pick", .pick), ("pick_unnamed", .pickUnnamed),
    ("defer_twice", .deferTwice), ("echo_data", .echoData), ("quote_add", .quoteAdd),
    ("quote", .quote), ("raise_revive", .fail), ("sub", .sub) ]

/-- The names of all functions. -/
def names : List (String × CombinatorName) :=
  registry ++ [("this_get", .thisGet), ("this_pack", .thisPack), ("opt_this", .optThis)]

/-- A function as a value. -/
def value (n : CombinatorName) : Value := .routine (.combinator n) []

/-- The functions by name. -/
def entries : Entries := registry.map fun e => (.text e.1, e.2.value)

/-- A function with captured values. -/
def closure (c : ClosureName) (captured : List Value) : Value := .routine (.closure c) captured

/-- What a failing function says unless told otherwise. -/
def defaultMessage : Value := .text "kaboom"

/-- A failure of one of the library's classes, by the name of the class. -/
def failureNamed (kind message : Value) : Failure :=
  match kind.unhashable?, kind with
  | some t, _ => .fault (.unhashable t)
  | none, .text s =>
    if s = FailureClass.reviveError.name then .general message.display
    else if s = FailureClass.evaluationError.name then
      if message.showsOversized then .fault .oversizedInteger
      else .evaluation message [] (Failure.callFailed message) none
    else if s = FailureClass.documentError.name then .document message.display
    else if s = FailureClass.documentParseError.name then
      .parse (.stated message.display .null .null)
    else if s = FailureClass.documentEncodeError.name then .encode (.stated message.display)
    else .fault (.missingKey kind.source)
  | none, _ => .fault (.saying .keyError kind kind.source)

/-- A mapping with one entry. -/
def single (key value : Value) : Except Fault Value :=
  match key.unhashable? with
  | some t => .error (.unhashable t)
  | none => .ok (.mapping [(key, value)])

/-- The value under a key of a mapping, or nothing. -/
def entryOf (mapping key : Value) : Except Fault Value :=
  match mapping with
  | .mapping es => do .ok ((← Value.lookupKey es key).getD .null)
  | v => .error (.noAttribute v.qualifiedTypeName "get")

/-- The result of a function for a count of arguments that it takes. -/
def apply : CombinatorName → List Value → Run Value
  | .add, [a, b] => Run.ofFault (a.add b)
  | .sub, [a, b] => Run.ofFault (a.sub b)
  | .get, [label, v] => Run.ofFault (v.subscript label)
  | .getCurried, [label] => .done (closure .getCurried [label])
  | .always, [v] => .done (closure .always [v])
  | .count, vs => .done (.int vs.length)
  | .identity, [v] => .done v
  | .pack, vs => .done (.list vs)
  | .pair, [a, b] => .done (.tuple [a, b])
  | .opt, [a, b] => .done (.list [a, b])
  | .opt, [a] => .done (.list [a, .null])
  | .thisGet, [this, key] => Run.ofFault (entryOf this key)
  | .thisPack, this :: vs => .done (.list [this, .list vs])
  | .optThis, [_, .null] => .done .null
  | .optThis, [key, this] => Run.ofFault (this.subscript key)
  | .pick, [key] => .done (.deferred (closure .pick [key]) (.text "pick"))
  | .pickUnnamed, [key] =>
    .done (.deferred (closure .pickUnnamed [key]) (.text Routine.anonymous))
  | .deferTwice, [v] => .done (closure .deferTwice [v])
  | .echoData, _ => .done (closure .echoData [])
  | .quoteAdd, _ => .done (.mapping [(.text "$add", .list [.int 1, .int 2])])
  | .quote, [key, v] => Run.ofFault (single key v)
  | .observe, vs => (Run.emit (.observed vs)).andThen fun _ => .done (vs.headD .null)
  | .boom, vs =>
    let message := vs.headD defaultMessage
    .fault (.saying .runtimeError message message.display)
  | .laterBoom, vs => .done (closure .laterBoom [vs.headD defaultMessage])
  | .fail, [kind, message] => .fail (failureNamed kind message)
  | _, _ => .done .null

end CombinatorName

end LiveDoc
