import LiveDoc.Folder
import LiveDoc.Library.Catalogue
import LiveDoc.Library.Standard
import LiveDoc.Printer
import LiveDoc.Report

/-!
# Sessions

A session revives one document from a file, or holds a dialogue: every line that is entered is a
document, or sets the data that later documents see. What a session prints stands in the log of its
run.
-/

namespace LiveDoc

/-- What a session and the functions that it calls can see of the outside. `modules` lists function
modules between commas, and `input` holds the lines that can be entered. Values come with the attributes
that their language gives them, and templates are rendered by a library of their own, which can call
what it finds in the data. -/
structure Surroundings where
  files : Folder
  now : Moment
  tracing : Bool
  modules : String
  input : List String
  attributes : Attributes := .listed
  render : Caller → String → Value → Run Value := Mustache.render

namespace Session

/-- The modules that a list between commas names; blanks around a name do not count. -/
def moduleNames (list : String) : List String :=
  ((Text.splitAt ',' list.toList).map Text.trim).filterMap fun cs =>
    if cs.isEmpty then none else some (String.ofList cs)

/-- The standard functions together with those of modules. -/
def functions (modules : String) : Except Fault Entries :=
  (moduleNames modules).foldlM (fun es name => do
    .ok ((← Catalogue.functionsOf name).foldl (fun es f => es.insert f.1 f.2) es))
    StandardName.entries

/-- The configuration of a session for documents in a format. -/
def config (modules : String) (format : Format) : Run Config :=
  (Run.ofFault (functions modules)).andThen fun fs =>
    Run.ofFault (Report.configure (.mapping fs) [("fmt", .text format.name)])

/-- The run that prints a line. -/
def say (line : String) : Run Unit := .emit (.printed (line ++ "\n"))

/-- The run that prints a line to the error output. -/
def complain (line : String) : Run Unit := .emit (.reported (line ++ "\n"))

/-- The text of a failure that data have instead of a value. -/
def dataFailure (cause : ParseCause) : String := "ParseError: " ++ cause.message

/-- Prints what became of a document, and tells whether it went well. -/
def answer (r : Report) : Run Bool :=
  match r with
  | .success v =>
    (Run.ofFault (Printer.print v)).andThen fun s => (say s).andThen fun _ => .done true
  | r => (complain r.errorText).andThen fun _ => .done false

/-- Revives a document and prints what became of it. -/
def answerTo (call : Caller) (tracing : Bool) (c : Config) (document data : Value) : Run Bool :=
  (Report.handle call tracing c document data).andThen answer

/-- The document and the data of a session with a file. -/
def load (files : Folder) (document : String) (data : Option String) :
    Except Failure (Value × Value) := do
  let text ← match files.text document Document.defaultEncoding with
    | .ok s => .ok (Value.text s)
    | .error f => .error (.fault f)
  match data with
  | none => .ok (text, .null)
  | some path =>
    if path.isEmpty then .ok (text, .null)
    else do .ok (text, ← files.document path Document.defaultEncoding)

/-- Revives the document in a file, with data from another one, and tells the exit status. -/
def reviveFile (call : Caller) (s : Surroundings) (document : String) (data : Option String) :
    Run Nat :=
  let path := Folder.tidy document
  match load s.files path data with
  | .error (.fault (.noSuchFile missing)) =>
    (complain ("Error: file not found: " ++ missing)).andThen fun _ => .done 1
  | .error (.parse cause) => (complain (dataFailure cause)).andThen fun _ => .done 1
  | .error f => .fail f
  | .ok (text, value) =>
    (config s.modules ((Folder.format? path).getD .json)).andThen fun c =>
      (answerTo call s.tracing c text value).andThen fun well => .done (if well then 0 else 1)

/-- What a dialogue shows at its start. -/
def greeting : List String :=
  [ "revive REPL v0.1",
    "Type a JSON or YAML document per line, ':data <yaml>' to set data, 'exit' to quit." ]

/-- What a dialogue shows before every line. -/
def prompt : String := ">> "

/-- The line that ends a dialogue. -/
def exitLine : List Char := "exit".toList

/-- What a line that sets the data starts with. -/
def dataMark : List Char := ":data".toList

/-- What a line asks for. -/
inductive Request where
  | nothing
  | leave
  | setData (source : String)
  | revive (document : String)
deriving DecidableEq, Repr

/-- The request that a line makes; blanks at its ends do not count. -/
def Request.ofLine (line : String) : Request :=
  let cs := Text.trim line.toList
  if cs.isEmpty then .nothing
  else if cs = exitLine then .leave
  else match Text.stripLeading? dataMark cs with
    | some source => .setData (String.ofList (Text.trim source))
    | none => .revive (String.ofList cs)

/-- Reads new data; where there are none, the present data stay. -/
def newData (present : Value) (source : String) : Run Value :=
  match Document.decode .yaml source with
  | .ok v => .done v
  | .error (.parse cause) =>
    (complain (dataFailure cause)).andThen fun _ => .done present
  | .error f => .fail f

/-- Grants a request under the present data; the outcome is the data for the next line, or nothing
if the dialogue ends. -/
def grant (call : Caller) (tracing : Bool) (c : Config) (data : Value) :
    Request → Run (Option Value)
  | .nothing => .done (some data)
  | .leave => .done none
  | .setData source => (newData data source).andThen fun v => .done (some v)
  | .revive document =>
    (answerTo call tracing c (.text document) data).andThen fun _ => .done (some data)

/-- What a dialogue shows when there are no more lines. -/
def farewell : String := "\nExiting.\n"

/-- Answers lines until they end or one of them ends the dialogue. -/
def converseFrom (call : Caller) (tracing : Bool) (c : Config) : Value → List String → Run Unit
  | _, [] => .emit (.printed (prompt ++ farewell))
  | data, line :: lines =>
    (Run.emit (.printed prompt)).andThen fun _ =>
      (grant call tracing c data (.ofLine line)).andThen fun
        | none => .done ()
        | some v => converseFrom call tracing c v lines

/-- Greets, and makes the configuration of a dialogue. -/
def start (s : Surroundings) : Run Config :=
  (Run.each say greeting).andThen fun _ => config s.modules .yaml

/-- Holds a dialogue. -/
def converse (call : Caller) (s : Surroundings) : Run Unit :=
  (start s).andThen fun c => converseFrom call s.tracing c .null s.input

/-- The lines of a text; each but the last one ends in a line feed. -/
def linesOf (text : String) : List String :=
  let pieces := Text.splitAt '\n' text.toList
  (if pieces.getLast? = some [] then pieces.dropLast else pieces).map String.ofList

/-- Whether the arguments of a command ask for a dialogue: there are none, or the first one is an
option. -/
def isDialogue (arguments : List String) : Bool :=
  match arguments with
  | [] => true
  | first :: _ => first.toList.head? = some '-'

/-- Runs a session for the arguments of a command: a document and perhaps its data, or a dialogue.
-/
def run (call : Caller) (s : Surroundings) (arguments : List String) : Run Nat :=
  if isDialogue arguments then (converse call s).andThen fun _ => .done 0
  else reviveFile call s (arguments.headD "") (arguments.drop 1).head?

end Session

end LiveDoc
