import LiveDoc.Value.Show
import LiveDoc.Json.Fault
import LiveDoc.Yaml.Fault
import LiveDoc.Mustache.Fault

/-!
# Failures

A fault is what an operation on values reports; a failure is what a document run reports. The
library's own failures are passed on as they are, and a fault in a called function becomes an
evaluation failure that names the function, its arguments and the class of the fault. A few faults
cannot be told in this way: an interruption, and a fault that has no words. All wording stands here.
-/

namespace LiveDoc

/-- The classes of failures. -/
inductive FailureClass where
  | attributeError
  | documentEncodeError
  | documentError
  | documentParseError
  | evaluationError
  | fileNotFoundError
  | importError
  | indexError
  | isADirectoryError
  | keyError
  | lookupError
  | memoryError
  | notADirectoryError
  | osError
  | overflowError
  | parsingError
  | recursionError
  | reviveError
  | runtimeError
  | stopIteration
  | typeError
  | unicodeDecodeError
  | valueError
  | zeroDivisionError
  | other (name : String)
deriving DecidableEq, Repr, Inhabited

namespace FailureClass

/-- The name of a class. -/
def name : FailureClass → String
  | .attributeError => "AttributeError"
  | .documentEncodeError => "DocumentEncodeError"
  | .documentError => "DocumentError"
  | .documentParseError => "DocumentParseError"
  | .evaluationError => "EvaluationError"
  | .fileNotFoundError => "FileNotFoundError"
  | .importError => "ImportError"
  | .indexError => "IndexError"
  | .isADirectoryError => "IsADirectoryError"
  | .keyError => "KeyError"
  | .lookupError => "LookupError"
  | .memoryError => "MemoryError"
  | .notADirectoryError => "NotADirectoryError"
  | .osError => "OSError"
  | .overflowError => "OverflowError"
  | .parsingError => "ParsingError"
  | .recursionError => "RecursionError"
  | .reviveError => "ReviveError"
  | .runtimeError => "RuntimeError"
  | .stopIteration => "StopIteration"
  | .typeError => "TypeError"
  | .unicodeDecodeError => "UnicodeDecodeError"
  | .valueError => "ValueError"
  | .zeroDivisionError => "ZeroDivisionError"
  | .other n => n

/-- The library's own classes, each with the class it is a case of. -/
def parent? : FailureClass → Option FailureClass
  | .evaluationError => some .reviveError
  | .documentError => some .reviveError
  | .documentParseError => some .documentError
  | .documentEncodeError => some .documentError
  | _ => none

/-- Whether failures of one class count as failures of another. -/
def isA (c d : FailureClass) : Bool :=
  c == d || match c.parent? with
    | some p => p == d || p.parent? == some d
    | none => false

/-- The library's own classes, from the general to the special. -/
def own : List FailureClass :=
  [.reviveError, .evaluationError, .documentError, .documentParseError, .documentEncodeError]

end FailureClass

/-- What an operation on values reports. Types and values that take part stand in it as text.

Three faults are special to those that call a function. The end of an iteration carries a value: its
type, and its position if it is an integer. An interruption is meant for nobody in between. And a fault
may have no words: whoever asks for them is given a fault of the class `reason` instead. -/
inductive Fault where
  | operands (operator left right : String)
  | concatenation (left right : String)
  | byteConcatenation (left right : String)
  | repetition (other : String)
  | indexSize
  | indexSizeAsIndex
  | repeatedTooLong
  | outOfMemory
  | integerTooLargeForFloat
  | quotientTooLarge
  | divisionByZero
  | floatDivisionByZero
  | floatInfinityToInteger
  | span (fault : SpanFault)
  | calendar (fault : CalendarFault)
  | dateOutOfRange
  | mixedOffsets
  | notSubscriptable (type : String)
  | sequenceIndices (sequence type : String)
  | textIndices (type : String)
  | indexOutOfRange (sequence : String)
  | missingKey (key : String)
  | unhashable (type : String)
  | noAttribute (type name : String)
  | notIterable (type : String)
  | notCallable (type : String)
  | missingArguments (routine : String) (names : List String)
  | tooManyArguments (routine : String) (least most given : Nat)
  | noArguments (routine : String) (given : Nat)
  | oneArgument (routine : String) (given : Nat)
  | keywordArgument (routine name : String)
  | repeatedArgument (routine name : String)
  | oversizedInteger
  | oversizedNumeral (digits : Nat)
  | invalidInteger (base : Nat) (text : String)
  | invalidFloat (text : String)
  | codePointOutOfRange
  | codePointTooLarge
  | spanDaysType (type : String)
  | dateExpected
  | renderExpected
  | unrecognizedDate (text : String)
  | timestampNan
  | timestampOutOfRange
  | timestampUnrepresentable
  | joinIterable
  | joinItem (index : Nat) (type : String)
  | template (fault : Mustache.Fault)
  | undecodable (fault : DecodeFault)
  | unknownEncoding (name : String)
  | noSuchFile (path : String)
  | isDirectory (path : String)
  | notADirectory (path : String)
  | nullInPath
  | pathForm (type : String)
  | noSuchModule (requested missing : String)
  | notAPackage (requested missing package : String)
  | emptyModuleName
  | relativeModule (name : String)
  | textExpected (type : String)
  | documentFormat (text : String)
  | serializationFormat (text : String)
  | configForm (type : String)
  | unknownOptions (names : List String)
  | functionsForm
  | functionNameForm (type : String)
  | functionForm (name : String)
  | tagForm
  | modeForm
  | leadingTextForm
  | deferredForm
  | pairConversion (index : Nat)
  | pairLength (index length : Nat)
  | callDepth
  | chosen (cls : FailureClass) (message : String)
  | iterationEnd (position : Option Int) (type message : String)
  | interruption (kind message : String)
  | wordless (cls reason : FailureClass) (message : String)
deriving DecidableEq

namespace Fault

/-- Quoted names in a row, the last one after `and`. -/
def enumerate (names : List String) : String :=
  match names.map Text.literal with
  | [] => ""
  | [a] => a
  | [a, b] => a ++ " and " ++ b
  | many => ", ".intercalate many.dropLast ++ ", and " ++ many.getLastD ""

/-- The class of a fault. -/
def cls : Fault → FailureClass
  | .operands .. => .typeError
  | .concatenation .. => .typeError
  | .byteConcatenation .. => .typeError
  | .repetition _ => .typeError
  | .indexSize => .overflowError
  | .indexSizeAsIndex => .indexError
  | .repeatedTooLong => .overflowError
  | .outOfMemory => .memoryError
  | .integerTooLargeForFloat => .overflowError
  | .quotientTooLarge => .overflowError
  | .divisionByZero => .zeroDivisionError
  | .floatDivisionByZero => .zeroDivisionError
  | .floatInfinityToInteger => .overflowError
  | .span (.tooManyDays _) => .overflowError
  | .span .dayCountTooLarge => .overflowError
  | .span .infiniteDays => .overflowError
  | .span .nanDays => .valueError
  | .span .nanRatio => .valueError
  | .span .infiniteRatio => .overflowError
  | .span .divisionByZero => .zeroDivisionError
  | .calendar _ => .valueError
  | .dateOutOfRange => .overflowError
  | .mixedOffsets => .typeError
  | .notSubscriptable _ => .typeError
  | .sequenceIndices .. => .typeError
  | .textIndices _ => .typeError
  | .indexOutOfRange _ => .indexError
  | .missingKey _ => .keyError
  | .unhashable _ => .typeError
  | .noAttribute .. => .attributeError
  | .notIterable _ => .typeError
  | .notCallable _ => .typeError
  | .missingArguments .. => .typeError
  | .tooManyArguments .. => .typeError
  | .noArguments .. => .typeError
  | .oneArgument .. => .typeError
  | .keywordArgument .. => .typeError
  | .repeatedArgument .. => .typeError
  | .oversizedInteger => .valueError
  | .oversizedNumeral _ => .valueError
  | .invalidInteger .. => .valueError
  | .invalidFloat _ => .valueError
  | .codePointOutOfRange => .valueError
  | .codePointTooLarge => .overflowError
  | .spanDaysType _ => .typeError
  | .dateExpected => .typeError
  | .renderExpected => .typeError
  | .unrecognizedDate _ => .valueError
  | .timestampNan => .valueError
  | .timestampOutOfRange => .overflowError
  | .timestampUnrepresentable => .osError
  | .joinIterable => .typeError
  | .joinItem .. => .typeError
  | .template .delimiters => .indexError
  | .template _ => .parsingError
  | .undecodable _ => .unicodeDecodeError
  | .unknownEncoding _ => .lookupError
  | .noSuchFile _ => .fileNotFoundError
  | .isDirectory _ => .isADirectoryError
  | .notADirectory _ => .notADirectoryError
  | .nullInPath => .valueError
  | .pathForm _ => .typeError
  | .noSuchModule .. => .importError
  | .notAPackage .. => .importError
  | .emptyModuleName => .valueError
  | .relativeModule _ => .typeError
  | .textExpected _ => .typeError
  | .documentFormat _ => .valueError
  | .serializationFormat _ => .valueError
  | .configForm _ => .typeError
  | .unknownOptions _ => .typeError
  | .functionsForm => .typeError
  | .functionNameForm _ => .typeError
  | .functionForm _ => .typeError
  | .tagForm => .typeError
  | .modeForm => .typeError
  | .leadingTextForm => .typeError
  | .deferredForm => .typeError
  | .pairConversion _ => .typeError
  | .pairLength .. => .valueError
  | .callDepth => .recursionError
  | .chosen c _ => c
  | .iterationEnd .. => .stopIteration
  | .interruption kind _ => .other kind
  | .wordless c _ _ => c

/-- A span fault in words. -/
def spanText : SpanFault → String
  | .tooManyDays d => "days=" ++ toString d ++ "; must have magnitude <= 999999999"
  | .dayCountTooLarge => "Python int too large to convert to C int"
  | .infiniteDays => "cannot convert float infinity to integer"
  | .nanDays => "cannot convert float NaN to integer"
  | .nanRatio => "cannot convert NaN to integer ratio"
  | .infiniteRatio => "cannot convert Infinity to integer ratio"
  | .divisionByZero => "integer division or modulo by zero"

/-- A calendar fault in words. -/
def calendarText : CalendarFault → String
  | .yearOutOfRange y => "year " ++ toString y ++ " is out of range"
  | .monthOutOfRange => "month must be in 1..12"
  | .dayOutOfRange => "day is out of range for month"
  | .hourOutOfRange => "hour must be in 0..23"
  | .minuteOutOfRange => "minute must be in 0..59"
  | .secondOutOfRange => "second must be in 0..59"
  | .offsetOutOfRange o =>
    "offset must be a timedelta strictly between -timedelta(hours=24) and timedelta(hours=24), " ++
      "not " ++ Value.spanSource ⟨o⟩

/-- A fault in words. -/
def message : Fault → String
  | .operands op a b =>
    "unsupported operand type(s) for " ++ op ++ ": '" ++ a ++ "' and '" ++ b ++ "'"
  | .concatenation a b => "can only concatenate " ++ a ++ " (not \"" ++ b ++ "\") to " ++ a
  | .byteConcatenation a b => "can't concat " ++ b ++ " to " ++ a
  | .repetition t => "can't multiply sequence by non-int of type '" ++ t ++ "'"
  | .indexSize => "cannot fit 'int' into an index-sized integer"
  | .indexSizeAsIndex => "cannot fit 'int' into an index-sized integer"
  | .repeatedTooLong => "repeated string is too long"
  | .outOfMemory => ""
  | .integerTooLargeForFloat => "int too large to convert to float"
  | .quotientTooLarge => "integer division result too large for a float"
  | .divisionByZero => "division by zero"
  | .floatDivisionByZero => "float division by zero"
  | .floatInfinityToInteger => "cannot convert float infinity to integer"
  | .span f => spanText f
  | .calendar f => calendarText f
  | .dateOutOfRange => "date value out of range"
  | .mixedOffsets => "can't subtract offset-naive and offset-aware datetimes"
  | .notSubscriptable t => "'" ++ t ++ "' object is not subscriptable"
  | .sequenceIndices s t => s ++ " indices must be integers or slices, not " ++ t
  | .textIndices t => "string indices must be integers, not '" ++ t ++ "'"
  | .indexOutOfRange "" => "index out of range"
  | .indexOutOfRange s => s ++ " index out of range"
  | .missingKey k => k
  | .unhashable t => "unhashable type: '" ++ t ++ "'"
  | .noAttribute t n => "'" ++ t ++ "' object has no attribute '" ++ n ++ "'"
  | .notIterable t => "'" ++ t ++ "' object is not iterable"
  | .notCallable t => "'" ++ t ++ "' object is not callable"
  | .missingArguments r names =>
    r ++ "() missing " ++ toString names.length ++ " required positional argument" ++
      (if names.length = 1 then "" else "s") ++ ": " ++ enumerate names
  | .tooManyArguments r least most given =>
    r ++ "() takes " ++
      (if least = most then
        toString most ++ " positional argument" ++ (if most = 1 then "" else "s")
      else "from " ++ toString least ++ " to " ++ toString most ++ " positional arguments") ++
      " but " ++ toString given ++ (if given = 1 then " was given" else " were given")
  | .noArguments r given => r ++ "() takes no arguments (" ++ toString given ++ " given)"
  | .oneArgument r given => r ++ "() takes exactly one argument (" ++ toString given ++ " given)"
  | .keywordArgument r name => r ++ "() got an unexpected keyword argument '" ++ name ++ "'"
  | .repeatedArgument r name => r ++ "() got multiple values for argument '" ++ name ++ "'"
  | .oversizedInteger =>
    "Exceeds the limit (4300 digits) for integer string conversion; " ++
      "use sys.set_int_max_str_digits() to increase the limit"
  | .oversizedNumeral n =>
    "Exceeds the limit (4300 digits) for integer string conversion: value has " ++ toString n ++
      " digits; use sys.set_int_max_str_digits() to increase the limit"
  | .invalidInteger base s =>
    "invalid literal for int() with base " ++ toString base ++ ": " ++
      String.ofList ((Text.literal s).toList.take 200)
  | .invalidFloat s => "could not convert string to float: " ++ Text.literal s
  | .codePointOutOfRange => "chr() arg not in range(0x110000)"
  | .codePointTooLarge => "Python int too large to convert to C int"
  | .spanDaysType t => "unsupported type for timedelta days component: " ++ t
  | .dateExpected => "date expects a string or a millisecond timestamp"
  | .renderExpected => "render expects a template string"
  | .unrecognizedDate s => "unrecognized date: " ++ Text.literal s
  | .timestampNan => "Invalid value NaN (not a number)"
  | .timestampOutOfRange => "timestamp out of range for platform time_t"
  | .timestampUnrepresentable => "[Errno 75] Value too large for defined data type"
  | .joinIterable => "can only join an iterable"
  | .joinItem i t =>
    "sequence item " ++ toString i ++ ": expected str instance, " ++ t ++ " found"
  | .template f => f.message
  | .undecodable f => f.message
  | .unknownEncoding n => "unknown encoding: " ++ n
  | .noSuchFile p => "[Errno 2] No such file or directory: " ++ Text.literal p
  | .isDirectory p => "[Errno 21] Is a directory: " ++ Text.literal p
  | .notADirectory p => "[Errno 20] Not a directory: " ++ Text.literal p
  | .nullInPath => "embedded null byte"
  | .pathForm t => "expected str, bytes or os.PathLike object, not " ++ t
  | .noSuchModule requested missing =>
    "Could not import functions from '" ++ requested ++ "': No module named " ++
      Text.literal missing
  | .notAPackage requested missing package =>
    "Could not import functions from '" ++ requested ++ "': No module named " ++
      Text.literal missing ++ "; " ++ Text.literal package ++ " is not a package"
  | .emptyModuleName => "Empty module name"
  | .relativeModule n =>
    "the 'package' argument is required to perform a relative import for " ++ Text.literal n
  | .textExpected t => "expected text or bytes, not " ++ t
  | .documentFormat s => "Unsupported document format: " ++ s
  | .serializationFormat s => "Unsupported serialization format: " ++ s
  | .configForm t => "config must be a ReviverConfig or a mapping, not " ++ t
  | .unknownOptions names => "unknown config option(s): " ++ ", ".intercalate names
  | .functionsForm => "functions must be a mapping of name -> callable"
  | .functionNameForm t => "function names must be strings, not " ++ t
  | .functionForm n => "function " ++ Text.literal n ++ " is not callable"
  | .tagForm => "tag must be a callable name -> tag string"
  | .modeForm => "stringify_first must be True, False or None"
  | .leadingTextForm => "prefix_tag expects a string prefix"
  | .deferredForm => "Deferred expects a callable"
  | .pairConversion i =>
    "cannot convert dictionary update sequence element #" ++ toString i ++ " to a sequence"
  | .pairLength i n =>
    "dictionary update sequence element #" ++ toString i ++ " has length " ++ toString n ++
      "; 2 is required"
  | .callDepth => "maximum recursion depth exceeded"
  | .chosen _ m => m
  | .iterationEnd _ _ m => m
  | .interruption _ m => m
  | .wordless _ _ m => m

/-- A fault of a class whose words would be `text`, the form of a value. They cannot be had if an integer of
too many digits is in them. -/
def saying (cls : FailureClass) (v : Value) (text : String) : Fault :=
  if v.showsOversized then .wordless cls oversizedInteger.cls oversizedInteger.message
  else .chosen cls text

end Fault

/-- Why a text is no document. -/
inductive ParseCause where
  | json (reason : Json.Reason) (line column : Nat)
  | yaml (source : List Char) (fault : Yaml.Fault)
  | bytes (encoding : String) (reason : Fault)
  | stated (message : String) (line column : Value)

/-- Why a value has no written form. -/
inductive EncodeCause where
  | jsonKey (type : String)
  | jsonValue (type : String)
  | oversized
  | yamlObject (source : String)
  | stated (message : String)

namespace ParseCause

/-- The cause in words. -/
def message : ParseCause → String
  | .json reason _ _ => "invalid JSON: " ++ reason.text
  | .yaml source fault => "invalid YAML: " ++ fault.message source
  | .bytes encoding reason =>
    "could not decode document bytes as " ++ encoding ++ ": " ++ reason.message
  | .stated m _ _ => m

/-- The line at fault, from 1, if it is known. -/
def line : ParseCause → Value
  | .json _ l _ => .int l
  | .yaml _ f => match f.mark? with
    | some m => .int (m.line + 1)
    | none => .null
  | .bytes .. => .null
  | .stated _ l _ => l

/-- The column at fault, from 1, if it is known. -/
def column : ParseCause → Value
  | .json _ _ c => .int c
  | .yaml _ f => match f.mark? with
    | some m => .int (m.column + 1)
    | none => .null
  | .bytes .. => .null
  | .stated _ _ c => c

end ParseCause

/-- The cause in words. -/
def EncodeCause.message : EncodeCause → String
  | .jsonKey t =>
    "document is not JSON-encodable: keys must be str, int, float, bool or None, not " ++ t
  | .jsonValue t =>
    "document is not JSON-encodable: Object of type " ++ t ++ " is not JSON serializable"
  | .oversized => "document is not JSON-encodable: " ++ Fault.oversizedInteger.message
  | .yamlObject s =>
    "document is not YAML-encodable: ('cannot represent an object', " ++ s ++ ")"
  | .stated m => m

/-- What a document run reports. -/
inductive Failure where
  | general (message : String)
  | document (message : String)
  | parse (cause : ParseCause)
  | encode (cause : EncodeCause)
  | evaluation (name : Value) (arguments : List Value) (message : String)
      (cause : Option FailureClass)
  | fault (fault : Fault)

namespace Failure

/-- The class of a failure. -/
def cls : Failure → FailureClass
  | .general _ => .reviveError
  | .document _ => .documentError
  | .parse _ => .documentParseError
  | .encode _ => .documentEncodeError
  | .evaluation .. => .evaluationError
  | .fault f => f.cls

/-- A failure in words. -/
def message : Failure → String
  | .general m => m
  | .document m => m
  | .parse c => c.message
  | .encode c => c.message
  | .evaluation _ _ m _ => m
  | .fault f => f.message

/-- Whether a failure is one of the library's own, which runs pass on unchanged. -/
def isOwn : Failure → Bool
  | .fault _ => false
  | _ => true

/-- What a call passes on in place of a failure that it cannot tell: an interruption as it is, and the
fault of asking for words where there are none. -/
def inPlace? : Failure → Option Failure
  | .fault (.interruption kind message) => some (.fault (.interruption kind message))
  | .fault (.wordless _ reason message) => some (.fault (.chosen reason message))
  | _ => none

/-- The text of an evaluation failure that states no text of its own. -/
def callFailed (name : Value) : String := "call to " ++ name.source ++ " failed"

end Failure

end LiveDoc
