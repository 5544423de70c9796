import LiveDoc.Engine

/-!
# Transforming documents

A document is revived in one of two modes. Driver-fed, it is read as JSON text and every object is
revived as soon as it is complete; self-driven, the whole value is read first and then gone through.
-/

namespace LiveDoc

/-- Who drives the revival of a document: the reader of its text, or the engine. -/
inductive Mode where
  | driverFed
  | selfDriven
deriving DecidableEq, Repr

namespace Mode

/-- The name of a mode. -/
def name : Mode → String
  | .driverFed => "driver-fed"
  | .selfDriven => "self-driven"

/-- The mode for a document: the configured one, or else the engine drives where the document is
text that is not JSON. -/
def select (document : Value) (c : Config) : Mode :=
  match c.stringifyFirst with
  | .bool true => .driverFed
  | .bool false => .selfDriven
  | _ => if document.isText && c.format == .yaml then .selfDriven else .driverFed

end Mode

namespace Engine

/-- What the engine makes of an object that a reader has completed. -/
def revive (e : Engine) (v : Value) : Run Value := e.evaluate false v

/-- The JSON text of a document. -/
def jsonSource (document : Value) (c : Config) : Except Failure Value :=
  let written := fun v => match Document.write .json .compact .strict v with
    | .ok s => .ok (.text s)
    | .error f => .error f
  if !document.isText then written document
  else match c.format with
    | .json => .ok document
    | .yaml => do written (← Document.read .yaml document)

/-- The value of a document that is not read yet if it is text. -/
def tree (document : Value) (c : Config) : Except Failure Value :=
  if document.isText then Document.read c.format document else .ok document

/-- A document with its call nodes replaced, in a mode. -/
def run (e : Engine) (mode : Mode) (document : Value) : Run Value :=
  match mode with
  | .driverFed =>
    (Run.ofExcept (jsonSource document e.config)).andThen (Document.readWith e.revive)
  | .selfDriven =>
    (Run.ofExcept (tree document e.config)).andThen (e.evaluate true)

/-- What the diagnostic is told when there are no functions. -/
def noFunctions : String := "revive: no functions provided"

/-- Tells the diagnostic of a configuration if it has no functions. -/
def diagnose (call : Caller) (c : Config) : Run Unit :=
  if c.functions.isEmpty then
    (call c.diagnostic [.text noFunctions]).apart.andThen fun _ => .done ()
  else .done ()

/-- The engine of a configuration with data, made after its diagnostic has been told. -/
def prepare (call : Caller) (tracing : Bool) (c : Config) (data : Value) : Run Engine :=
  (diagnose call c).andThen fun _ => make call tracing c data

end Engine

/-- A document with its call nodes replaced, under a checked configuration. -/
def transformWith (call : Caller) (tracing : Bool) (c : Config) (document data : Value) :
    Run Value :=
  (Engine.prepare call tracing c data).andThen fun e =>
    let mode := Mode.select document c
    (Engine.trace tracing ("transform mode " ++ mode.name ++ " input " ++
        document.typeName)).andThen fun _ => e.run mode document

/-- A document with its call nodes replaced. -/
def transform (call : Caller) (tracing : Bool) (config document data : Value)
    (overrides : Options) : Run Value :=
  (Run.ofFault (Config.coerce config overrides)).andThen fun c =>
    transformWith call tracing c document data

namespace Engine

/-- An engine as a value that can be called. -/
def toValue (e : Engine) : Value :=
  .record .reviver
    [ e.config.toValue, e.data, .mapping (e.index.map fun t => (.text t.1, .text t.2)) ]

/-- The tags in a mapping. -/
def indexOf (es : Entries) : TagIndex :=
  es.filterMap fun
    | (.text tag, .text name) => some (tag, name)
    | _ => none

/-- The engine that a value stands for. -/
def ofValue? (call : Caller) (tracing : Bool) (v : Value) : Option Engine :=
  match v with
  | .record .reviver [config, data, .mapping tags] =>
    (Config.ofValue? config).map fun c => ⟨call, tracing, c, data, indexOf tags⟩
  | _ => none

end Engine

end LiveDoc
