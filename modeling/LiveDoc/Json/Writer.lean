import LiveDoc.Value.Show
import LiveDoc.Failure

/-!
# Writing JSON

Two layouts, compact and indented by two spaces, and two rules for what has no JSON form: the strict
one refuses it, the lenient one shows calendar values and functions as texts. Keys that are numbers
or constants become texts.
-/

namespace LiveDoc

namespace Value

/-- The name under which a callable presents itself, if it has one. -/
def functionName? : Value → Option String
  | .routine (.tag .leading) (lead :: _) => some ("prefix_tag(" ++ lead.source ++ ")")
  | .routine r _ => some r.profile.name
  | _ => none

/-- The name that a display shows for a callable. -/
def deferredName (v : Value) : String :=
  match v with
  | .deferred _ label => if label.truthy then label.display else "?"
  | .routine (.service .deferral) _ => "<member 'name' of 'Deferred' objects>"
  | _ => (v.functionName?.filter (· ≠ "")).getD "?"

end Value

namespace Json

/-- A layout of JSON text. -/
inductive Layout where
  | compact
  | indented
deriving DecidableEq, Repr

/-- Whether values without JSON form are refused or shown. -/
inductive Rigor where
  | strict
  | lenient
deriving DecidableEq, Repr

namespace Writer

/-- A character within a string. -/
def escapeChar (c : Char) : List Char :=
  if c = '"' then ['\\', '"']
  else if c = '\\' then ['\\', '\\']
  else if c = '\n' then ['\\', 'n']
  else if c = '\r' then ['\\', 'r']
  else if c = '\t' then ['\\', 't']
  else if c = '\x08' then ['\\', 'b']
  else if c = '\x0c' then ['\\', 'f']
  else if c.toNat < 32 then '\\' :: 'u' :: Text.hex 4 c.toNat
  else [c]

/-- A text as a string. -/
def string (s : String) : String := String.ofList ('"' :: s.toList.flatMap escapeChar ++ ['"'])

/-- A number as it is written. -/
def float (x : Binary64) : String :=
  match x with
  | .nan => "NaN"
  | .infinite s => if s then "-Infinity" else "Infinity"
  | _ => x.text

/-- An integer as it is written. -/
def int (n : Int) : Except EncodeCause String :=
  if Value.isOversized n then .error .oversized else .ok (toString n)

/-- The text of a key. The layouts name the type of a key that has none in different ways. -/
def key (layout : Layout) (v : Value) : Except EncodeCause String :=
  match v with
  | .text s => .ok s
  | .float x => .ok (float x)
  | .bool b => .ok (if b then "true" else "false")
  | .null => .ok "null"
  | .int n => int n
  | _ => .error (.jsonKey (match layout with
      | .compact => v.qualifiedTypeName
      | .indented => v.typeName))

/-- A line break with the indentation of a level, in the layout that has them. -/
def newline (layout : Layout) (level : Nat) : String :=
  match layout with
  | .compact => ""
  | .indented => String.ofList ('\n' :: List.replicate (2 * level) ' ')

/-- What stands between items. -/
def separator (layout : Layout) (level : Nat) : String :=
  match layout with
  | .compact => ", "
  | .indented => "," ++ newline layout level

/-- Items between brackets; brackets without items stay together. -/
def block (layout : Layout) (level : Nat) (opening closing : String) (items : List String) :
    String :=
  if items.isEmpty then opening ++ closing
  else opening ++ newline layout (level + 1) ++ (separator layout (level + 1)).intercalate items ++
    newline layout level ++ closing

/-- What has no JSON form: refused, or shown as a text. The name of a callable may be any value, and
one with an integer of too many digits has no text. -/
def other (rigor : Rigor) (v : Value) : Except EncodeCause String :=
  match rigor with
  | .strict => .error (.jsonValue v.typeName)
  | .lenient =>
    match v with
    | .date d => .ok (string d.text)
    | .moment m => .ok (string m.text)
    | .clock t => .ok (string t.text)
    | _ =>
      if !v.isCallable then .error (.jsonValue v.typeName)
      else if v.showsOversized then .error .oversized
      else .ok (string ("<deferred " ++ v.deferredName ++ ">"))

mutual

/-- A value at a level of indentation. -/
def value (layout : Layout) (rigor : Rigor) (level : Nat) : Value → Except EncodeCause String
  | .null => .ok "null"
  | .bool b => .ok (if b then "true" else "false")
  | .int n => int n
  | .float x => .ok (float x)
  | .text s => .ok (string s)
  | .list xs => do .ok (block layout level "[" "]" (← values layout rigor (level + 1) xs))
  | .tuple xs => do .ok (block layout level "[" "]" (← values layout rigor (level + 1) xs))
  | .mapping es => do
    .ok (block layout level Value.openBrace Value.closeBrace
      (← entries layout rigor (level + 1) es))
  | v => other rigor v

/-- The items of a list. -/
def values (layout : Layout) (rigor : Rigor) (level : Nat) :
    List Value → Except EncodeCause (List String)
  | [] => .ok []
  | x :: xs => do
    let s ← value layout rigor level x
    .ok (s :: (← values layout rigor level xs))

/-- The entries of a mapping. -/
def entries (layout : Layout) (rigor : Rigor) (level : Nat) :
    List (Value × Value) → Except EncodeCause (List String)
  | [] => .ok []
  | (k, v) :: es => do
    let name ← key layout k
    let s ← value layout rigor level v
    .ok ((string name ++ ": " ++ s) :: (← entries layout rigor level es))

end

end Writer

/-- The JSON text of a value. -/
def write (layout : Layout) (rigor : Rigor) (v : Value) : Except EncodeCause String :=
  Writer.value layout rigor 0 v

end Json

end LiveDoc
