/-!
# Routines

A routine is the name of a function that a document can call, or of a function that such a call
returns. What it does is said elsewhere; here are the names under which it appears in messages and
the parameters it takes.
-/

namespace LiveDoc

/-- The functions of the standard library. -/
inductive StandardName where
  | add | addDays | always | concat | date | div | get | getCurried | mul | now | render | sub
deriving DecidableEq, Repr, Inhabited

/-- The combinators: small functions that build, forward, observe and fail. -/
inductive CombinatorName where
  | add | sub | get | getCurried | always | count | identity | pack | pair | opt | nothing
  | thisGet | thisPack | optThis | pick | pickUnnamed | deferTwice | echoData | quoteAdd | quote
  | observe | boom | laterBoom | fail
deriving DecidableEq, Repr, Inhabited

/-- The functions that other functions return; their captured values stand beside the name. -/
inductive ClosureName where
  | libraryGet | libraryAlways | libraryRender
  | getCurried | always | pick | pickUnnamed | deferTwice | deferTwiceInner | echoData | laterBoom
  | withDocument | withData
deriving DecidableEq, Repr, Inhabited

/-- The naming strategies that turn a function's name into its tag. -/
inductive TagName where
  | dollar | leading | upper | lower | constant | bare
deriving DecidableEq, Repr, Inhabited

/-- The functions that other parts of the library offer to documents. -/
inductive ServiceName where
  | stderrDiagnostic | collect | leadingTag | coerceConfig
  | isDeferred | normalizeArgs | makeReviver | selectMode | transform | transformCurried
  | isText | detectFormat | serialize | deserialize | loadsWithReviver
  | lookup | standardFunctions
  | formatForPath | readDocumentText | loadDocument | loadFunctions
  | buildFunctions | session | converse | reviveFile
  | deferral
deriving DecidableEq, Repr, Inhabited

/-- Methods of values that a lookup can hand out: some of which is said what they do, and others. -/
inductive MethodName where
  | join | upper | date
  | other (name : String)
deriving DecidableEq, Repr, Inhabited

/-- A function by name. -/
inductive Routine where
  | standard (name : StandardName)
  | combinator (name : CombinatorName)
  | closure (name : ClosureName)
  | tag (name : TagName)
  | service (name : ServiceName)
  | method (name : MethodName)
deriving DecidableEq, Repr, Inhabited

/-- The positional parameters of a routine: `optional` of them, the last ones, may be left out, and
`variadic` ones take any number of further arguments. -/
structure Parameters where
  names : List String
  optional : Nat := 0
  variadic : Bool := false

/-- How a routine presents itself. `bound` counts an argument that the routine already has. -/
structure Profile where
  name : String
  qualified : String
  kind : String := "function"
  parameters : Parameters
  bound : Bool := false

namespace Routine

/-- The profile of a function that stands on its own. -/
def plain (name : String) (names : List String) (optional : Nat := 0) (variadic : Bool := false) :
    Profile :=
  { name := name, qualified := name, parameters := ⟨names, optional, variadic⟩ }

/-- The profile of a standard function: a method that has its library as first argument. -/
def bound (name : String) (names : List String) (optional : Nat := 0) (variadic : Bool := false) :
    Profile :=
  { name := name, qualified := "StdLib." ++ name, kind := "method",
    parameters := ⟨names, optional, variadic⟩, bound := true }

/-- The profile of a function made within another one. -/
def inner (name owner : String) (names : List String) (optional : Nat := 0) : Profile :=
  { name := name, qualified := owner ++ ".<locals>." ++ name,
    parameters := ⟨names, optional, false⟩ }

/-- The name of a function without one. -/
def anonymous : String := "<lambda>"

/-- How a routine presents itself. A naming strategy with a leading text shows that text, which is
captured and thus added by the caller. -/
def profile : Routine → Profile
  | .standard .add => bound "_add" ["a", "b"]
  | .standard .addDays => bound "_add_days" ["date", "days"]
  | .standard .always => bound "_always" ["value"]
  | .standard .concat => bound "_concat" [] 0 true
  | .standard .date => bound "_date" ["value"] 1
  | .standard .div => bound "_div" ["a", "b"]
  | .standard .get => bound "_get" ["label", "obj"]
  | .standard .getCurried => bound "_get_curried" ["label"]
  | .standard .mul => bound "_mul" ["a", "b"]
  | .standard .now => bound "_now" []
  | .standard .render => bound "_render" ["template"]
  | .standard .sub => bound "_sub" ["a", "b"]
  | .combinator .add => plain "add" ["x", "y"]
  | .combinator .sub => plain "sub" ["x", "y"]
  | .combinator .get => plain "get" ["label", "obj"]
  | .combinator .getCurried => plain "getCurried" ["label"]
  | .combinator .always => plain "always" ["value"]
  | .combinator .count => plain "count" [] 0 true
  | .combinator .identity => plain "identity" ["x"]
  | .combinator .pack => plain "pack" [] 0 true
  | .combinator .pair => plain "pair" ["a", "b"]
  | .combinator .opt => plain "opt" ["a", "b"] 1
  | .combinator .nothing => plain "nothing" [] 0 true
  | .combinator .thisGet => plain "this_get" ["this", "prop"]
  | .combinator .thisPack => plain "this_pack" ["this"] 0 true
  | .combinator .optThis => plain "opt_this" ["prop", "this"] 1
  | .combinator .pick => plain "pick" ["key"]
  | .combinator .pickUnnamed => plain "pick_unnamed" ["key"]
  | .combinator .deferTwice => plain "defer_twice" ["value"]
  | .combinator .echoData => plain "echo_data" [] 0 true
  | .combinator .quoteAdd => plain "quote_add" [] 0 true
  | .combinator .quote => plain "quote" ["tag", "args"]
  | .combinator .observe => plain "rec" [] 0 true
  | .combinator .boom => plain "boom" ["message"] 1
  | .combinator .laterBoom => plain "later_boom" ["message"] 1
  | .combinator .fail => plain "raise_revive" ["kind", "message"]
  | .closure .libraryGet => inner anonymous "StdLib._get_curried" ["data"]
  | .closure .libraryAlways => inner anonymous "StdLib._always" ["data"]
  | .closure .libraryRender => inner anonymous "StdLib._render" ["data"]
  | .closure .getCurried => inner "curried" "getCurried" ["data"]
  | .closure .always => inner anonymous "always" ["data"]
  | .closure .pick => inner anonymous "pick" ["data"]
  | .closure .pickUnnamed => inner anonymous "pick_unnamed" ["data"]
  | .closure .deferTwice => inner anonymous "defer_twice" ["data"]
  | .closure .deferTwiceInner => inner anonymous "defer_twice.<locals>.<lambda>" ["data2"]
  | .closure .echoData => inner anonymous "echo_data" ["data"]
  | .closure .laterBoom => inner "fail" "later_boom" ["data"]
  | .closure .withDocument => inner "with_document" "transform_curried" ["document"]
  | .closure .withData =>
    inner "with_data" "transform_curried.<locals>.with_document" ["data"] 1
  | .tag .dollar => plain "dollar_tag" ["name"]
  | .tag .leading => inner "tag" "prefix_tag" ["name"]
  | .tag .upper => plain "upper_tag" ["name"]
  | .tag .lower => plain "lower_tag" ["name"]
  | .tag .constant => plain "const_tag" ["name"]
  | .tag .bare => plain "bare_tag" ["name"]
  | .service .stderrDiagnostic => plain "stderr_diagnostic" ["message"]
  | .service .collect => plain "collect" ["message"]
  | .service .leadingTag => plain "prefix_tag" ["prefix"]
  | .service .coerceConfig => plain "coerce_config" ["config"] 1
  | .service .isDeferred => plain "is_deferred" ["value"]
  | .service .normalizeArgs => plain "normalize_args" ["args_value"]
  | .service .makeReviver => plain "make_reviver" ["config", "data"] 2
  | .service .selectMode => plain "select_mode" ["document", "config"]
  | .service .transform => plain "transform" ["config", "document", "data"] 3
  | .service .transformCurried => plain "transform_curried" ["config"] 1
  | .service .isText => plain "is_text" ["document"]
  | .service .detectFormat => plain "detect_format" ["content_type", "data_hint"] 2
  | .service .serialize => plain "serialize" ["value"]
  | .service .deserialize => plain "deserialize" ["data"]
  | .service .loadsWithReviver => plain "loads_with_reviver" ["text", "hook"]
  | .service .lookup => plain "lookup" ["obj", "label"]
  | .service .standardFunctions => plain "standard_functions" []
  | .service .formatForPath => plain "format_for_path" ["path"]
  | .service .readDocumentText => plain "read_document_text" ["path", "encoding"] 1
  | .service .loadDocument => plain "load_document" ["path"]
  | .service .loadFunctions => plain "load_functions" ["module_name"]
  | .service .buildFunctions => plain "build_functions" []
  | .service .session => plain "main" ["argv"] 1
  | .service .converse => plain "repl" []
  | .service .reviveFile => plain "run_document_file" ["document_path", "data_path"] 1
  | .service .deferral =>
    { name := "Deferred", qualified := "Deferred.__init__", kind := "type",
      parameters := ⟨["fn", "name"], 1, false⟩, bound := true }
  | .method .join =>
    { name := "join", qualified := "str.join", kind := "builtin_function_or_method",
      parameters := ⟨["iterable"], 0, false⟩, bound := true }
  | .method .upper =>
    { name := "upper", qualified := "str.upper", kind := "builtin_function_or_method",
      parameters := ⟨[], 0, false⟩, bound := true }
  | .method .date =>
    { name := "date", qualified := "datetime.date", kind := "builtin_function_or_method",
      parameters := ⟨[], 0, false⟩, bound := true }
  | .method (.other name) =>
    { name := name, qualified := name, kind := "builtin_function_or_method",
      parameters := ⟨[], 0, true⟩, bound := true }

end Routine

end LiveDoc
