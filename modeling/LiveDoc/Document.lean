import LiveDoc.Json.Reader
import LiveDoc.Json.Writer
import LiveDoc.Yaml.Build
import LiveDoc.Yaml.Writer

/-!
# Documents as text

A document is written in one of two formats. Text is decoded from bytes if need be, and its format
is stated, or told by a content type, or guessed from the first character.
-/

namespace LiveDoc

/-- The formats of document text. -/
inductive Format where
  | json
  | yaml
deriving DecidableEq, Repr, Inhabited

namespace Format

/-- The name of a format. -/
def name : Format → String
  | .json => "json"
  | .yaml => "yaml"

/-- The format of a name in lower case. -/
def ofName? (s : String) : Option Format :=
  if s = "json" then some .json else if s = "yaml" then some .yaml else none

end Format

namespace Document

/-- The encoding of bytes that state none. -/
def defaultEncoding : String := "utf-8"

/-- Bytes decoded by an encoding of a name. -/
def decodeBytes (encoding : String) (bytes : List UInt8) : Except Fault String :=
  match Encoding.ofName? encoding with
  | none => .error (.unknownEncoding encoding)
  | some e => match e.decode bytes with
    | .ok s => .ok s
    | .error f => .error (.undecodable f)

/-- The text of a document, which is given as text or bytes. No bytes are the empty text in every
encoding. -/
def contents (encoding : String) (data : Value) : Except Failure String :=
  let decoded := fun (bytes : List UInt8) =>
    if bytes.isEmpty then .ok ""
    else match decodeBytes encoding bytes with
      | .ok s => .ok s
      | .error f => .error (.parse (.bytes encoding f))
  match data with
  | .text s => .ok s
  | .bytes bs => decoded bs
  | .buffer bs => decoded bs
  | v => .error (.fault (.textExpected v.typeName))

/-- The value behind `charset` and an equals sign at the head of a text, blanks being allowed on
both sides of the sign. -/
def charsetHere? (cs : List Char) : Option (List Char) := do
  let word := (cs.take 7).map fun c => if c = 'ſ' then 's' else c.toLower
  if word = "charset".toList then
    let rest ← Text.stripLeading? ['='] (Text.trimLeft (cs.drop 7))
    let value := (Text.trimLeft rest).takeWhile fun c => !Text.isBlank c && c != ';'
    if value.isEmpty then none else some value
  else none

/-- The first such value in a text. -/
def charsetIn? : List Char → Option (List Char)
  | [] => none
  | c :: cs => (charsetHere? (c :: cs)).or (charsetIn? cs)

/-- A text without a character at either end. -/
def unquoted (quote : Char) (cs : List Char) : List Char :=
  ((cs.dropWhile (· == quote)).reverse.dropWhile (· == quote)).reverse

/-- The encoding that a content type states, if it states one. -/
def charset? (contentType : String) : Option String :=
  (charsetIn? contentType.toList).map fun cs => String.ofList (unquoted '\'' (unquoted '"' cs))

/-- Whether a text contains another one. -/
def contains (part : List Char) : List Char → Bool
  | [] => part.isEmpty
  | c :: cs => part.isPrefixOf (c :: cs) || contains part cs

/-- The format that a content type names. -/
def formatOfType? (contentType : String) : Option Format :=
  let cs := (Text.lower contentType).toList
  if contains "json".toList cs then some .json
  else if contains "yaml".toList cs then some .yaml
  else none

/-- The format that the start of a text suggests; blank text suggests none. -/
def formatOfText? (text : String) : Option Format :=
  match Text.trimLeft text.toList with
  | [] => none
  | c :: _ => some (if c = '\x7b' ∨ c = '[' ∨ c = '"' then .json else .yaml)

/-- The format that a content type names or else a text suggests. -/
def detect? (contentType : String) (text : Option String) : Option Format :=
  (formatOfType? contentType).or (text.bind formatOfText?)

/-- The value that a text in a format writes. -/
def decode (f : Format) (s : String) : Except Failure Value :=
  match f with
  | .json => Json.decode s
  | .yaml => Yaml.decode s

/-- The value of a document in a format. -/
def read (f : Format) (data : Value) : Except Failure Value := do
  decode f (← contents defaultEncoding data)

/-- The text of a value in a format. Layout and rigor are those of JSON text; YAML has one form. -/
def write (f : Format) (layout : Json.Layout) (rigor : Json.Rigor) (v : Value) :
    Except Failure String :=
  match f with
  | .json => match Json.write layout rigor v with
    | .ok s => .ok s
    | .error c => .error (.encode c)
  | .yaml => Yaml.write v

/-- An option that is a text or nothing: what stands for nothing is the empty text, and other values
lack the method by which the option would be read. -/
def optionText (lacking : String) (v : Value) : Except Failure String :=
  if v.truthy then
    match v with
    | .text s => .ok s
    | _ => .error (.fault (.noAttribute v.qualifiedTypeName lacking))
  else .ok ""

/-- The encoding that a content type option states. -/
def encodingOption (contentType : Value) : Except Failure String :=
  if contentType.truthy then
    match contentType with
    | .text s => .ok (match charset? s with
      | some "" => defaultEncoding
      | some e => e
      | none => defaultEncoding)
    | v => .error (.fault (.chosen .typeError
        ("expected string or bytes-like object, got '" ++ v.qualifiedTypeName ++ "'")))
  else .ok defaultEncoding

/-- The format that a content type or a text tells, as a value. -/
def detectFormat (contentType hint : Value) : Except Failure Value := do
  let type ← optionText "lower" contentType
  let text ← match hint with
    | .null => .ok none
    | .text s => .ok (some s)
    | v =>
      if (formatOfType? type).isSome then .ok none
      else .error (.fault (.noAttribute v.qualifiedTypeName "lstrip"))
  .ok (match detect? type text with
    | some f => .text f.name
    | none => .null)

/-- The value of a document whose format may be stated, told or guessed. -/
def deserialize (data contentType format : Value) : Except Failure Value := do
  let encoding ← encodingOption contentType
  let text ← contents encoding data
  let stated ← optionText "lower" format
  if stated = "" then
    let type ← optionText "lower" contentType
    decode ((detect? type (some text)).getD .json) text
  else match Format.ofName? (Text.lower stated) with
    | some f => decode f text
    | none => .error (.fault (.documentFormat format.source))

/-- The text of a value in a format of a name. -/
def serialize (v format : Value) (pretty strict : Bool) : Except Failure String := do
  let name ← optionText "lower" format
  match Format.ofName? (Text.lower name) with
  | some f =>
    write f (if pretty then .indented else .compact) (if strict then .strict else .lenient) v
  | none => .error (.fault (.serializationFormat format.source))

/-- The value of a JSON document, a hook replacing every object in it. -/
def readWith (hook : Value → Run Value) (data : Value) (spell : Json.Spelling := .plain) : Run Value :=
  (Run.ofExcept (contents defaultEncoding data)).andThen fun s => Json.decodeWith hook s spell

end Document

end LiveDoc
