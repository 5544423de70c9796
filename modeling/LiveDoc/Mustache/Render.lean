import LiveDoc.Mustache.Template
import LiveDoc.Value.Attribute
import LiveDoc.Value.Sequence
import LiveDoc.Run

/-!
# Rendering templates

Names are looked up on a stack of contexts, innermost first. What is missing renders as nothing, and
a callable renders as the template it returns.
-/

namespace LiveDoc.Mustache

/-- How a callable is called. -/
abbrev Caller := Value → List Value → Run Value

/-- The contexts of a name, innermost first. -/
abbrev Stack := List Value

/-- A character as it stands in markup. -/
def escapeChar (c : Char) : List Char :=
  if c = '&' then "&amp;".toList
  else if c = '<' then "&lt;".toList
  else if c = '>' then "&gt;".toList
  else if c = '"' then "&quot;".toList
  else if c = '\'' then "&#x27;".toList
  else [c]

/-- A text as it stands in markup. -/
def escape (cs : List Char) : List Char := cs.flatMap escapeChar

/-- The text of a value. Bytes are text in UTF-8. -/
def textOf (v : Value) : Run (List Char) :=
  match v with
  | .text s => .done s.toList
  | .bytes bs => match Encoding.decode .utf8 bs with
    | .ok s => .done s.toList
    | .error f => .fault (.undecodable f)
  | _ => if v.showsOversized then .fault .oversizedInteger else .done v.display.toList

/-- What a context holds under a name, if anything: a mapping has entries, and other values have
attributes, a callable one being called. -/
def member? (call : Caller) (context : Value) (name : String) : Run (Option Value) :=
  match context with
  | .mapping es => .done (Entries.text? es name)
  | .bool _ => .done none
  | .int _ => .done none
  | .float _ => .done none
  | _ =>
    match context.part? name, context.answer? name with
    | some v, _ =>
      if v.isCallable then (call v []).andThen fun r => .done (some r) else .done (some v)
    | none, answer => .done answer

/-- What the innermost context that holds a name has under it. -/
def lookUp (call : Caller) (name : String) : Stack → Run (Option Value)
  | [] => .done none
  | context :: stack =>
    (member? call context name).andThen fun
      | some v => .done (some v)
      | none => lookUp call name stack

/-- Follows names from a value on. -/
def follow (call : Caller) (v : Value) : List String → Run (Option Value)
  | [] => .done (some v)
  | name :: names =>
    (member? call v name).andThen fun
      | some v => follow call v names
      | none => .done none

/-- The value of a key with names between points; a point on its own is the innermost context. What
is missing is the empty text. -/
def resolve (call : Caller) (stack : Stack) (key : String) : Run Value :=
  let found : Run (Option Value) :=
    if key = "." then .done stack.head?
    else match (Text.splitAt '.' key.toList).map String.ofList with
      | [] => .done none
      | first :: names =>
        (lookUp call first stack).andThen fun
          | some v => follow call v names
          | none => .done none
  found.andThen fun v => .done (v.getD (.text ""))

/-- The values that a block is rendered for: the items of a list, or a value that counts as true. -/
def blockValues (v : Value) : List Value :=
  if v.truthy then
    match v with
    | .text _ => [v]
    | .bytes _ => [v]
    | .mapping _ => [v]
    | _ => v.items?.getD [v]
  else []

/-- How a template is rendered in a stack. -/
abbrev Again := Delimiters → List Char → Stack → Run (List Char)

mutual

/-- The text of a piece. -/
def piece (call : Caller) (again : Again) (stack : Stack) : Piece → Run (List Char)
  | .text cs => .done cs
  | .slot key escaped => do
    let v ← resolve call stack key
    let cs ←
      if v.isCallable then do again .usual (← textOf (← call v [])) stack
      else textOf v
    .done (if escaped then escape cs else cs)
  | .block key body source delimiters => do
    let v ← resolve call stack key
    let parts ← Run.each (fun item =>
      if item.isCallable then do
        again delimiters (← textOf (← call item [.text (String.ofList source)])) stack
      else pieces call again (item :: stack) body) (blockValues v)
    .done parts.flatten
  | .inverted key body => do
    let v ← resolve call stack key
    if v.truthy then .done [] else pieces call again stack body

/-- The text of pieces. -/
def pieces (call : Caller) (again : Again) (stack : Stack) : List Piece → Run (List Char)
  | [] => .done []
  | p :: ps => do
    let first ← piece call again stack p
    let rest ← pieces call again stack ps
    .done (first ++ rest)

end

/-- The text of a template in a stack; `depth` bounds how often a callable may return another
template. -/
def renderIn (call : Caller) : Nat → Again
  | 0, _, _, _ => .fault .callDepth
  | depth + 1, d, template, stack =>
    match parse d template with
    | .ok ps => pieces call (renderIn call depth) stack ps
    | .error f => .fault (.template f)

/-- The most templates that may be nested by callables. -/
def maxDepth : Nat := 200

/-- The text of a template with data; without data the context is an empty mapping. -/
def render (call : Caller) (template : String) (data : Value) : Run Value := do
  let context := match data with
    | .null => Value.mapping []
    | v => v
  let cs ← renderIn call maxDepth .usual template.toList [context]
  .done (.text (String.ofList cs))

end LiveDoc.Mustache
