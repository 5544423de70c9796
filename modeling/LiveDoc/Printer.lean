import LiveDoc.Json.Writer
import LiveDoc.Value.Arithmetic

/-!
# Printing

Values in the shape of JSON text, for reading. What JSON cannot hold is shown as well as possible:
calendar values as texts, callables by name, and the rest as it would stand in a message.
-/

namespace LiveDoc.Printer

/-- A callable by name. -/
def callable (v : Value) : String :=
  match v with
  | .deferred _ label => "<deferred " ++ (if label.truthy then label.display else "?") ++ ">"
  | _ => "<deferred " ++ v.functionName?.getD "?" ++ ">"

/-- The text of a key. -/
def key (v : Value) : Except Fault String :=
  if v.showsOversized then .error .oversizedInteger else .ok (Json.Writer.string v.display)

/-- A value that holds no others. -/
def leaf (v : Value) : Except Fault String :=
  if v.showsOversized then .error .oversizedInteger
  else .ok (match v with
    | .null => "null"
    | .bool b => if b then "true" else "false"
    | .float x => Json.Writer.float x
    | .text s => Json.Writer.string s
    | .date d => "\"" ++ d.text ++ "\""
    | .moment m => "\"" ++ m.text ++ "\""
    | .clock t => "\"" ++ t.text ++ "\""
    | v => if v.isCallable then callable v else v.source)

/-- Indentation repeated for a level. -/
def indentation (indent : String) (level : Int) : String :=
  String.join (List.replicate level.toNat indent)

/-- Lines between brackets. -/
def block (indent : String) (level : Int) (opening closing : String) (lines : List String) :
    String :=
  opening ++ "\n" ++
    ",\n".intercalate (lines.map fun l => indentation indent (level + 1) ++ l) ++ "\n" ++
    indentation indent level ++ closing

mutual

/-- A value at a level. -/
def format (indent : String) (level : Int) : Value → Except Fault String
  | .list [] => .ok "[]"
  | .list (x :: xs) => do
    .ok (block indent level "[" "]" (← formatAll indent (level + 1) (x :: xs)))
  | .tuple [] => .ok "[]"
  | .tuple (x :: xs) => do
    .ok (block indent level "[" "]" (← formatAll indent (level + 1) (x :: xs)))
  | .mapping [] => .ok (Value.openBrace ++ Value.closeBrace)
  | .mapping (e :: es) => do
    .ok (block indent level Value.openBrace Value.closeBrace
      (← formatEntries indent (level + 1) (e :: es)))
  | v => leaf v

/-- The items of a list at a level. -/
def formatAll (indent : String) (level : Int) : List Value → Except Fault (List String)
  | [] => .ok []
  | x :: xs => do
    let s ← format indent level x
    .ok (s :: (← formatAll indent level xs))

/-- The entries of a mapping at a level. -/
def formatEntries (indent : String) (level : Int) :
    List (Value × Value) → Except Fault (List String)
  | [] => .ok []
  | (k, v) :: es => do
    let name ← key k
    let s ← format indent level v
    .ok ((name ++ ": " ++ s) :: (← formatEntries indent level es))

end

/-- The usual width of indentation. -/
def usualWidth : Value := .int 2

/-- A value with two spaces for each level. -/
def print (v : Value) : Except Fault String := format "  " 0 v

/-- Whether a value has lines of its own. -/
def isBlock : Value → Bool
  | .list xs => !xs.isEmpty
  | .tuple xs => !xs.isEmpty
  | .mapping es => !es.isEmpty
  | _ => false

/-- A value with indentation of a width, from a level on. Both should be integers. -/
def printAt (width level v : Value) : Except Fault String := do
  let indent ← match ← (Value.text " ").mul width with
    | .text s => .ok s
    | _ => .ok ""
  match level.integer? with
  | some n => format indent n v
  | none =>
    if isBlock v then do
      let _ ← level.add (.int 1)
      let _ ← format indent 0 v
      .error (.repetition level.qualifiedTypeName)
    else format indent 0 v

end LiveDoc.Printer
