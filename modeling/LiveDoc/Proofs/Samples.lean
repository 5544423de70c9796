import LiveDoc.Library.Call

/-!
# A sample configuration

The small functions that build and forward values, under their own names, in surroundings that hold
nothing. The fixed documents that show a statement at work are revived with them.
-/

namespace LiveDoc.Sample

/-- Surroundings without files, modules and input. -/
def surroundings : Surroundings :=
  { files := [], now := default, tracing := false, modules := "", input := [] }

/-- How functions are called in these surroundings. -/
def call : Caller := surroundings.call

/-- The small functions with the usual tags and flags. -/
def config : Config :=
  { functions := CombinatorName.registry.map fun e => (e.1, e.2.value)
    tag := Config.dollarTag
    bindData := .bool false
    callReturned := .bool true
    stringifyFirst := .null
    format := .json
    diagnostic := .null }

/-- The mapping that calls a function with the arguments that a value holds. -/
def calling (name : String) (source : Value) : Value := .mapping [(.text ("$" ++ name), source)]

end LiveDoc.Sample
