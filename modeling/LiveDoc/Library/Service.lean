import LiveDoc.Library.Construction
import LiveDoc.Session

/-!
# Services

The library's own operations as functions that documents can call, on values of any kind.
-/

namespace LiveDoc

namespace Service

/-- The text of a path, or the text that stands for bytes that are one. -/
def pathOf (v : Value) : Except Fault String :=
  match v with
  | .text s => .ok s
  | v => .error (.pathForm v.typeName)

/-- The format that a path tells by its extension; bytes tell none. -/
def formatForPath (path : Value) : Except Fault Value :=
  match path with
  | .bytes _ => .ok .null
  | v => do .ok (match Folder.format? (← pathOf v) with
    | some f => .text f.name
    | none => .null)

/-- The name of an encoding; nothing stands for the usual one. -/
def encodingOf (v : Value) : Except Fault String :=
  match v with
  | .text s => .ok s
  | .null => .ok Document.defaultEncoding
  | v => .error (.chosen .typeError
      ("open() argument 'encoding' must be str or None, not " ++ v.typeName))

/-- The text of the file at a path. -/
def readText (files : Folder) (path encoding : Value) : Except Fault Value := do
  let e ← encodingOf encoding
  .ok (.text (← files.text (← pathOf path) e))

/-- The value of the document at a path. -/
def loadDocument (files : Folder) (path encoding : Value) : Run Value :=
  (Run.ofFault (encodingOf encoding)).andThen fun e =>
    (Run.ofFault (pathOf path)).andThen fun p => Run.ofExcept (files.document p e)

/-- The functions of a module, by name. -/
def loadFunctions (name : Value) : Except Fault Value :=
  match name with
  | .text s => do .ok (.mapping (← Catalogue.functionsOf s))
  | v => .error (.noAttribute v.qualifiedTypeName "startswith")

/-- The mode for a document under a configuration. -/
def selectMode (document config : Value) : Except Fault Value :=
  match Config.ofValue? config with
  | some c => .ok (.text (Mode.select document c).name)
  | none => .error (.noAttribute config.qualifiedTypeName "stringify_first")

/-- The engine of a configuration with data. -/
def makeReviver (call : Caller) (tracing : Bool) (config data : Value) (overrides : Options) :
    Run Value :=
  (Run.ofFault (Config.coerce config overrides)).andThen fun c =>
    (Engine.make call tracing c data).andThen fun e => .done e.toValue

/-- The transform that takes a document and then data. -/
def transformCurried (config : Value) (overrides : Options) : Except Fault Value := do
  .ok (Value.routine (.closure .withDocument) [(← Config.coerce config overrides).toValue])

/-- The value of a JSON document, a function replacing every object in it; the function is also
given the place of a key, which is never known. -/
def loadsWith (call : Caller) (text hook : Value) (spell : Json.Spelling := .plain) : Run Value :=
  Document.readWith (fun object => call hook [.null, object]) text spell

/-- The arguments of a command. -/
def commandOf (v : Value) : Except Fault (List String) := do
  if v.truthy then (← v.items).mapM pathOf else .ok []

/-- The result of a service for a count of arguments that it takes. -/
def apply (call : Caller) (s : Surroundings) (service : ServiceName) (arguments : List Value) :
    Run Value :=
  let first := arguments.headD .null
  let second := arguments.getD 1 .null
  let third := arguments.getD 2 .null
  match service with
  | .stderrDiagnostic =>
    (Run.ofFault (StandardName.textOf first)).andThen fun text =>
      (Run.emit (.warning text)).andThen fun _ => .done .null
  | .collect => (Run.emit (.diagnostic first)).andThen fun _ => .done .null
  | .leadingTag => Run.ofFault (Config.leadingTag first)
  | .coerceConfig =>
    (Run.ofFault (Config.coerce first [])).andThen fun c => .done c.toValue
  | .isDeferred => .done (.bool first.isCallable)
  | .normalizeArgs => .done (.list (Engine.normalizeArguments first))
  | .makeReviver => makeReviver call s.tracing first second []
  | .selectMode => Run.ofFault (selectMode first second)
  | .transform => transform call s.tracing first second third []
  | .transformCurried => Run.ofFault (transformCurried first [])
  | .isText => .done (.bool first.isText)
  | .detectFormat => Run.ofExcept (Document.detectFormat first second)
  | .serialize =>
    (Run.ofExcept (Document.serialize first (.text Format.json.name) true true)).andThen fun text =>
      .done (.text text)
  | .deserialize => Run.ofExcept (Document.deserialize first .null .null)
  | .loadsWithReviver => loadsWith call first second
  | .lookup => Run.ofFault (first.lookUp second s.attributes)
  | .standardFunctions => .done (.mapping StandardName.entries)
  | .formatForPath => Run.ofFault (formatForPath first)
  | .readDocumentText => Run.ofFault (readText s.files first second)
  | .loadDocument => loadDocument s.files first .null
  | .loadFunctions => Run.ofFault (loadFunctions first)
  | .buildFunctions =>
    (Run.ofFault (Session.functions s.modules)).andThen fun es => .done (.mapping es)
  | .session =>
    (Run.ofFault (commandOf first)).andThen fun command =>
      (Session.run call s command).andThen fun status => .done (.int status)
  | .converse => (Session.converse call s).andThen fun _ => .done .null
  | .reviveFile =>
    (Run.ofFault (pathOf first)).andThen fun document =>
      (Run.ofFault (if second.truthy then (pathOf second).map some else .ok none)).andThen
        fun data => (Session.reviveFile call s document data).andThen fun status =>
          .done (.int status)
  | .deferral => Run.ofFault (Value.deferOf arguments)

end Service

end LiveDoc
