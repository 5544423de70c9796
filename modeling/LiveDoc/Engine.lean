import LiveDoc.Config

/-!
# Reviving values

A call node is a mapping with one entry whose key is the tag of a function; its value holds the
arguments. Evaluation replaces call nodes by the results of their functions, arguments first. It may
go through a whole value, or look at one node whose children are already replaced.
-/

namespace LiveDoc

/-- How a callable value is called with arguments. -/
abbrev Caller := Value → List Value → Run Value

/-- The tags of a configuration, each with the name it stands for. -/
abbrev TagIndex := List (String × String)

/-- What call nodes are evaluated with. `tracing` shows the calls in the log. -/
structure Engine where
  call : Caller
  tracing : Bool
  config : Config
  data : Value
  index : TagIndex

namespace Engine

/-- Gives names their tags, one after the other. A tag that is already there keeps its name, and one
that is no text never stands in a call node. -/
def addTags (call : Caller) (tag : Value) : List String → TagIndex → Run TagIndex
  | [], index => .done index
  | name :: names, index =>
    (call tag [.text name]).apart.andThen fun t =>
      match t, t.unhashable? with
      | .text s, _ =>
        addTags call tag names
          (if (index.lookup s).isSome then index else index ++ [(s, name)])
      | _, some type => .fault (.unhashable type)
      | _, none => addTags call tag names index

/-- The tags of a configuration. -/
def tagIndex (call : Caller) (c : Config) : Run TagIndex :=
  addTags call c.tag (c.functions.map (·.1)) []

/-- The engine of a configuration with data. -/
def make (call : Caller) (tracing : Bool) (c : Config) (data : Value) : Run Engine :=
  (tagIndex call c).andThen fun index => .done ⟨call, tracing, c, data, index⟩

/-- The function that a call node names, with the value of its arguments. -/
def callNode? (index : TagIndex) (v : Value) : Option (String × Value) :=
  match v with
  | .mapping [(.text key, arguments)] => (index.lookup key).map (·, arguments)
  | _ => none

/-- The arguments that the value of a call node holds: the items of a list, or the value itself. -/
def normalizeArguments (v : Value) : List Value :=
  match v with
  | .list xs => xs
  | .tuple xs => xs
  | _ => [v]

/-- Shows a line in the log while tracing. -/
def trace (tracing : Bool) (line : String) : Run Unit :=
  if tracing then .emit (.trace line) else .done ()

/-- What a function returned, applied to the data if it is callable and that is asked for. -/
def applyToData (e : Engine) (name : String) (result : Value) : Run Value :=
  if e.config.callReturned.truthy && result.isCallable then
    (trace e.tracing ("DEFERRED " ++ name ++ " " ++ result.typeName)).andThen fun _ =>
      e.call result [e.data]
  else .done result

/-- A failure of a function as a failure of its call. The library's own failures stay as they are, and
some failures have another one in their place. -/
def callFailure (name : String) (arguments : List Value) (f : Failure) : Failure :=
  if f.isOwn then f
  else match f.inPlace? with
    | some g => g
    | none => .evaluation (.text name) arguments
        (f.cls.name ++ " in call to " ++ Text.literal name ++ ": " ++ f.message) (some f.cls)

/-- Calls the function of a name with resolved arguments. -/
def invoke (e : Engine) (name : String) (arguments : List Value) : Run Value :=
  let f := (e.config.functions.lookup name).getD .null
  let all := if e.config.bindData.truthy then e.data :: arguments else arguments
  (trace e.tracing ("CALL " ++ name ++ " argc " ++ toString arguments.length ++ " bind " ++
      e.config.bindData.display)).andThen fun _ =>
    (Run.invocation name arguments (e.call f all) (e.applyToData name)).handle fun failure =>
      .fail (callFailure name arguments failure)

/-- The value of a node with one entry: the call of the function that its key names, or, if `deep`,
an entry with its value replaced. The arguments and the value come from the entry's value. -/
def entryNode (e : Engine) (deep : Bool) (key : String) (old : Value)
    (arguments : Unit → Run (List Value)) (new : Unit → Run Value) : Run Value :=
  match e.index.lookup key with
  | some name => (arguments ()).andThen (e.invoke name)
  | none =>
    if deep then (new ()).andThen fun v => .done (.mapping [(.text key, v)])
    else .done (.mapping [(.text key, old)])

mutual

/-- A value with its call nodes replaced. Unless `deep`, what is no call node stays as it is. -/
def evaluate (e : Engine) (deep : Bool) : Value → Run Value
  | .mapping [(.text key, .list xs)] =>
    e.entryNode deep key (.list xs) (fun _ => evaluateAll e deep xs)
      fun _ => (evaluateAll e deep xs).andThen fun ys => .done (.list ys)
  | .mapping [(.text key, .tuple xs)] =>
    e.entryNode deep key (.tuple xs) (fun _ => evaluateAll e deep xs)
      fun _ => (evaluateAll e deep xs).andThen fun ys => .done (.tuple ys)
  | .mapping [(.text key, v)] =>
    e.entryNode deep key v (fun _ => (evaluate e deep v).andThen fun r => .done [r])
      fun _ => evaluate e deep v
  | .mapping es =>
    if deep then (evaluateEntries e deep es).andThen fun fs => .done (.mapping fs)
    else .done (.mapping es)
  | .list xs =>
    if deep then (evaluateAll e deep xs).andThen fun ys => .done (.list ys) else .done (.list xs)
  | .tuple xs =>
    if deep then (evaluateAll e deep xs).andThen fun ys => .done (.tuple ys) else .done (.tuple xs)
  | v => .done v
termination_by structural v => v

/-- The items of a list with their call nodes replaced, from left to right. -/
def evaluateAll (e : Engine) (deep : Bool) : List Value → Run (List Value)
  | [] => .done []
  | x :: xs =>
    (evaluate e deep x).andThen fun y =>
      (evaluateAll e deep xs).andThen fun ys => .done (y :: ys)
termination_by structural xs => xs

/-- The entries of a mapping with the call nodes of their values replaced, in order. -/
def evaluateEntries (e : Engine) (deep : Bool) :
    List (Value × Value) → Run (List (Value × Value))
  | [] => .done []
  | (k, x) :: es =>
    (evaluate e deep x).andThen fun y =>
      (evaluateEntries e deep es).andThen fun fs => .done ((k, y) :: fs)
termination_by structural es => es

end

end Engine

end LiveDoc
