import LiveDoc.Transform
import LiveDoc.Value.Sequence

/-!
# Reports

A report says what became of a document: its value, or the text of a failure with its place. Only
the library's own failures are reported; faults outside of documents and calls are passed on.
-/

namespace LiveDoc

/-- What became of a document. The place of a failure is a line and a column. -/
inductive Report where
  | success (value : Value)
  | failure (message : String) (place : Option (Value × Value))

namespace Report

/-- The text of a failure without a message. -/
def unknown : String := "Unknown error"

/-- A message with a place behind it. The column may be unknown. -/
def withPlace (message line column : Value) : String :=
  message.display ++ " (line " ++ line.display ++
    match column with
    | .null => ")"
    | c => ", col " ++ c.display ++ ")"

/-- The text of the failure that a report states, with its place if the line is known. -/
def errorText : Report → String
  | .success _ => ""
  | .failure message none => message
  | .failure message (some (line, column)) =>
    match line with
    | .null => message
    | l => withPlace (.text message) l column

/-- The name of the state in which a document went well. -/
def successName : String := "success"

/-- The name of the state in which a document failed. -/
def errorName : String := "error"

/-- The arguments of a failed call as text. -/
def argumentsText (arguments : List Value) : Except Fault String :=
  match Document.write .json .compact .lenient (.list arguments) with
  | .ok s => .ok s
  | .error _ =>
    if (Value.list arguments).showsOversized then .error .oversizedInteger
    else .ok (Value.list arguments).source

/-- The report of one of the library's own failures. -/
def ofFailure (f : Failure) : Except Fault Report :=
  match f with
  | .parse c =>
    .ok (.failure ("ParseError: " ++ f.message)
      (match c.line with
        | .null => none
        | l => some (l, c.column)))
  | .encode _ => .ok (.failure ("EncodeError: " ++ f.message) none)
  | .evaluation _ arguments _ _ =>
    if arguments.isEmpty then .ok (.failure ("EvaluationError: " ++ f.message) none)
    else do
      let s ← argumentsText arguments
      .ok (.failure ("EvaluationError: " ++ f.message ++ "\nArguments: " ++ s) none)
  | _ => .ok (.failure ("InternalError: " ++ f.message) none)

/-- The report of a run. -/
def ofRun (r : Run Value) : Run Report :=
  (r.andThen fun v => .done (.success v)).handle fun f =>
    if f.isOwn then Run.ofFault (ofFailure f) else .fail f

/-- Revives a document under a checked configuration and reports what became of it. -/
def handle (call : Caller) (tracing : Bool) (c : Config) (document data : Value) : Run Report :=
  ofRun (transformWith call tracing c document data)

/-- What makes the configuration of a runner. -/
def constructor : String := "DocumentRunner.__init__"

/-- The configuration of a runner with functions and further options. -/
def configure (functions : Value) (options : Options) : Except Fault Config := do
  if (options.lookup "functions").isSome then .error (.repeatedArgument constructor "functions")
  else
    let es ← if functions.truthy then functions.toEntries else .ok []
    Config.coerce
      (.mapping ((.text "functions", .mapping es) :: options.map fun o => (.text o.1, o.2))) []

/-- The text of a value, unless it would show an integer of too many digits. -/
def checkedText (v : Value) : Except Fault String :=
  if v.showsOversized then .error .oversizedInteger else .ok v.display

/-- The text of a failure whose parts may be any values. -/
def errorTextOf (status message token : Value) : Except Fault Value :=
  if !status.eqv (.text errorName) then .ok (.text "")
  else
    let m := if message.truthy then message else .text unknown
    if !token.truthy then .ok m
    else match token with
      | .mapping es =>
        match (Entries.text? es "line").getD .null with
        | .null => .ok m
        | line => do
          let column := (Entries.text? es "col").getD .null
          let _ ← [m, line, column].mapM checkedText
          .ok (.text (withPlace m line column))
      | v => .error (.noAttribute v.qualifiedTypeName "get")

/-- The parts of a report by name. -/
def partNames : List String := ["status", "value", "error_message", "error_token"]

/-- What makes a report of its parts. -/
def assembler : String := "RevivalResult.__init__"

/-- The text of the failure in a report that named parts make up; its state must be given. -/
def errorTextOfParts (parts : Options) : Except Fault Value :=
  match parts.find? fun p => !partNames.contains p.1 with
  | some p => .error (.keywordArgument assembler p.1)
  | none => match parts.lookup "status" with
    | none => .error (.missingArguments assembler ["status"])
    | some status =>
      errorTextOf status ((parts.lookup "error_message").getD .null)
        ((parts.lookup "error_token").getD .null)

end Report

end LiveDoc
