import LiveDoc.Value.Equality
import LiveDoc.Failure
import LiveDoc.Text.Blank

/-!
# Function modules

Further functions that documents can call come in modules, which are asked for by name.
-/

namespace LiveDoc

namespace Catalogue

/-- The modules by name, each with its functions in alphabetical order. -/
def modules : List (String × List Routine) :=
  [ ("revive", []),
    ("revive.revive_config",
      [.service .coerceConfig, .tag .dollar, .service .leadingTag, .service .stderrDiagnostic]),
    ("revive.revive_datatypes", [.service .isDeferred]),
    ("revive.revive_file",
      [.service .formatForPath, .service .loadDocument, .service .loadFunctions,
        .service .readDocumentText]),
    ("revive.revive_interpreter", [.service .normalizeArgs]),
    ("revive.revive_printer", []),
    ("revive.revive_runtime",
      [.service .makeReviver, .service .selectMode, .service .transform,
        .service .transformCurried]),
    ("revive.revive_serialize",
      [.service .deserialize, .service .detectFormat, .service .isText,
        .service .loadsWithReviver, .service .serialize]),
    ("revive.revive_stdlib", [.service .lookup, .service .standardFunctions]),
    ("revive_cli",
      [.service .buildFunctions, .service .session, .service .converse, .service .reviveFile]) ]

/-- The module that holds others. -/
def package : String := "revive"

/-- The names that lead to a module, from the outermost on. -/
def route (name : String) : List String :=
  let parts := Text.splitAt '.' name.toList
  (List.range parts.length).map fun n =>
    String.ofList (List.intercalate ['.'] (parts.take (n + 1)))

/-- Follows the names to a module; `holder` is the module that the last one led to. -/
def follow (requested : String) : Option String → List String → Except Fault String
  | holder, [] => .ok (holder.getD requested)
  | holder, name :: names =>
    match holder with
    | some h =>
      if h != package then .error (.notAPackage requested name h)
      else if (modules.lookup name).isSome then follow requested (some name) names
      else .error (.noSuchModule requested name)
    | none =>
      if (modules.lookup name).isSome then follow requested (some name) names
      else .error (.noSuchModule requested name)

/-- The functions of a module, by name. -/
def functionsOf (name : String) : Except Fault Entries :=
  if name.isEmpty then .error .emptyModuleName
  else if name.toList.head? = some '.' then .error (.relativeModule name)
  else do
    let found ← follow name none (route name)
    .ok (((modules.lookup found).getD []).map fun r => (.text r.profile.name, .routine r []))

end Catalogue

end LiveDoc
