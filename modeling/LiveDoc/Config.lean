import LiveDoc.Document

/-!
# Configuration

A configuration names the functions that documents may call and says how they are called. It is
built from options and checked once; options of another kind than expected are reported in a fixed
order.
-/

namespace LiveDoc

/-- Named values, in order. -/
abbrev Options := List (String × Value)

/-- How documents are revived. `bindData` passes the data to every function, and `callReturned`
calls the functions that functions return; both count by their truth value. `stringifyFirst` is
nothing where the mode follows from the document. -/
structure Config where
  functions : Options
  tag : Value
  bindData : Value
  callReturned : Value
  stringifyFirst : Value
  format : Format
  diagnostic : Value

namespace Config

/-- The naming strategy that puts a dollar sign in front of a name. -/
def dollarTag : Value := .routine (.tag .dollar) []

/-- The diagnostic that writes warnings. -/
def warningDiagnostic : Value := .routine (.service .stderrDiagnostic) []

/-- The naming strategy that puts a text in front of a name. -/
def leadingTag (lead : Value) : Except Fault Value :=
  match lead with
  | .text _ => .ok (.routine (.tag .leading) [lead])
  | _ => .error .leadingTextForm

/-- The names of the options with their default values. -/
def defaults : Options :=
  [ ("functions", .mapping []), ("tag", dollarTag), ("bind_data_to_function", .bool false),
    ("call_functions_returned_with_data", .bool true), ("stringify_first", .null),
    ("fmt", .text "json"), ("diagnostic", warningDiagnostic) ]

/-- Whether a text names an option. -/
def isOption (name : String) : Bool := (defaults.lookup name).isSome

/-- The value of an option. -/
def option (options : Options) (name : String) : Value :=
  ((options.lookup name).or (defaults.lookup name)).getD .null

/-- The functions of a mapping, which must have texts as keys and callables as values. -/
def checkFunctions : Entries → Except Fault Options
  | [] => .ok []
  | (.text name, f) :: es => do
    if f.isCallable then .ok ((name, f) :: (← checkFunctions es)) else .error (.functionForm name)
  | (k, _) :: _ => .error (.functionNameForm k.typeName)

/-- The functions that an option lists. -/
def functionsOf (v : Value) : Except Fault Options :=
  match v with
  | .null => .ok []
  | .mapping es => checkFunctions es
  | _ => .error .functionsForm

/-- The values that the mode option accepts, by equality. -/
def modeValues : List Value := [.null, .bool true, .bool false]

/-- The format that an option names. -/
def formatOf (v : Value) : Except Fault Format :=
  if v.truthy then
    match v with
    | .text s => match Format.ofName? (Text.lower s) with
      | some f => .ok f
      | none => .error (.documentFormat v.source)
    | .bytes _ => .error (.documentFormat v.source)
    | .buffer _ => .error (.documentFormat v.source)
    | _ => .error (.noAttribute v.qualifiedTypeName "lower")
  else .ok .json

/-- The configuration that options make. -/
def ofOptions (options : Options) : Except Fault Config := do
  let functions ← functionsOf (option options "functions")
  let tag := option options "tag"
  if !tag.isCallable then .error .tagForm
  else
    let mode := option options "stringify_first"
    if !modeValues.any mode.eqv then .error .modeForm
    else
      let format ← formatOf (option options "fmt")
      .ok { functions := functions, tag := tag,
            bindData := option options "bind_data_to_function",
            callReturned := option options "call_functions_returned_with_data",
            stringifyFirst := mode, format := format,
            diagnostic := option options "diagnostic" }

/-- The function that options are passed to where a configuration is made from them alone. -/
def constructor : String := "ReviverConfig.__init__"

/-- The name under which that function takes what it makes, which is no option. -/
def receiver : String := "self"

/-- The configuration that named options make; each must be known. -/
def ofNamed (options : Options) : Except Fault Config :=
  match options.find? fun o => !isOption o.1 with
  | some o =>
    if o.1 = receiver then .error (.repeatedArgument constructor o.1)
    else .error (.keywordArgument constructor o.1)
  | none => ofOptions options

/-- The options that make a configuration again. -/
def toOptions (c : Config) : Options :=
  [ ("functions", .mapping (c.functions.map fun f => (.text f.1, f.2))), ("tag", c.tag),
    ("bind_data_to_function", c.bindData), ("call_functions_returned_with_data", c.callReturned),
    ("stringify_first", c.stringifyFirst), ("fmt", .text c.format.name),
    ("diagnostic", c.diagnostic) ]

/-- A configuration as a value. -/
def toValue (c : Config) : Value := .record .config (c.toOptions.map (·.2))

/-- The configuration that a value stands for. -/
def ofValue? (v : Value) : Option Config :=
  match v with
  | .record .config [.mapping functions, tag, bind, call, mode, .text format, diagnostic] =>
    match checkFunctions functions, Format.ofName? format with
    | .ok fs, some f => some ⟨fs, tag, bind, call, mode, f, diagnostic⟩
    | _, _ => none
  | _ => none

/-- Whether one text comes before another one, by code points. -/
def comesBefore (a b : String) : Bool := !decide (b.toList < a.toList)

/-- The fault of keys that name no option. -/
def unknownFault (keys : List Value) : Fault :=
  let names := keys.filterMap fun
    | .text s => some s
    | _ => none
  match keys.filter fun
    | .text _ => false
    | _ => true with
  | [] => .unknownOptions (names.mergeSort comesBefore)
  | other :: _ =>
    if names.isEmpty then .joinItem 0 other.qualifiedTypeName
    else .chosen .typeError
      ("'<' not supported between instances of '" ++ other.qualifiedTypeName ++ "' and 'str'")

/-- Whether a key names an option. -/
def isOptionKey (key : Value) : Bool :=
  match key with
  | .text s => isOption s
  | _ => false

/-- The options in a mapping, in which every key must name one. -/
def optionsOf (es : Entries) : Except Fault Options :=
  match es.filter fun e => !isOptionKey e.1 with
  | [] => .ok (es.filterMap fun
    | (.text s, v) => some (s, v)
    | _ => none)
  | unknown => .error (unknownFault (unknown.map (·.1)))

/-- Options with others put over them. -/
def override (base overrides : Options) : Options :=
  overrides ++ base.filter fun o => (overrides.lookup o.1).isNone

/-- The configuration that a value describes, with options put over it: nothing, a configuration or
a mapping of options. -/
def coerce (config : Value) (overrides : Options) : Except Fault Config :=
  let entries := overrides.map fun o => (Value.text o.1, o.2)
  let extended := fun es => entries.foldl (fun es o => Entries.insert o.1 o.2 es) es
  match config with
  | .null => do ofOptions (← optionsOf (extended []))
  | .mapping es => do ofOptions (← optionsOf (extended es))
  | v =>
    match ofValue? v with
    | some c => if overrides.isEmpty then .ok c else ofNamed (override c.toOptions overrides)
    | none => .error (.configForm v.typeName)

end Config

end LiveDoc
