import LiveDoc.Library.Lookup
import LiveDoc.Library.Timestamp
import LiveDoc.Mustache.Render
import LiveDoc.Text.Case

/-!
# The standard library

Lookup, arithmetic, text and dates. Functions that need the data return deferred results.
-/

namespace LiveDoc

namespace StandardName

/-- The names under which documents call the functions, in order. -/
def registry : List (String × StandardName) :=
  [ ("add", .add), ("add_days", .addDays), ("addDays", .addDays), ("always", .always),
    ("concat", .concat), ("date", .date), ("div", .div), ("get", .get),
    ("get_curried", .getCurried), ("getCurried", .getCurried), ("mul", .mul), ("now", .now),
    ("render", .render), ("sub", .sub) ]

/-- A function as a value. -/
def value (n : StandardName) : Value := .routine (.standard n) []

/-- The functions by name. -/
def entries : Entries := registry.map fun e => (.text e.1, e.2.value)

/-- A deferred result with a name. -/
def deferred (c : ClosureName) (captured : List Value) (name : String) : Value :=
  .deferred (.routine (.closure c) captured) (.text name)

/-- The text of a value, unless it would show an integer of too many digits. -/
def textOf (v : Value) : Except Fault String :=
  if v.showsOversized then .error .oversizedInteger else .ok v.display

/-- The result of a function for a count of arguments that it takes. -/
def apply (now : Moment) (n : StandardName) (arguments : List Value)
    (attributes : Attributes := .listed) : Except Fault Value :=
  match n, arguments with
  | .add, [a, b] => a.add b
  | .sub, [a, b] => a.sub b
  | .mul, [a, b] => a.mul b
  | .div, [a, b] => a.div b
  | .get, [label, v] => v.lookUp label attributes
  | .getCurried, [label] => do
    .ok (deferred .libraryGet [label] ("get " ++ (← textOf label)))
  | .always, [v] => .ok (deferred .libraryAlways [v] "always")
  | .concat, vs => do .ok (.text (String.join (← vs.mapM textOf)))
  | .render, [.text template] => .ok (deferred .libraryRender [.text template] "render")
  | .render, _ => .error .renderExpected
  | .date, [v] => do .ok (.moment (← Moment.ofValue now v))
  | .addDays, [v, days] => v.addDays now days
  | _, _ => .ok (.moment now)

end StandardName

/-- The name of a function in another style: words after the first one, which underscores separate,
are joined to it with capital letters. -/
def camelCase (name : String) : String :=
  match Text.splitAt '_' name.toList with
  | [] => ""
  | head :: rest =>
    String.ofList head ++ String.join (rest.map fun w => Text.capitalize (String.ofList w))

end LiveDoc
