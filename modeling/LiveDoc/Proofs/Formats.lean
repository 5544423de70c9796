import LiveDoc.Document

/-!
# Formats as options

A format is stated by its name, and then text is read and written in it whatever the text looks like.
Where nothing states a format, the first character of the text that is not blank decides.
-/

namespace LiveDoc.Document

/-- The layout that stands for the pretty or the plain form. -/
def layoutOf (pretty : Bool) : Json.Layout := if pretty then .indented else .compact

/-- The rigor that stands for the strict or the display form. -/
def rigorOf (strict : Bool) : Json.Rigor := if strict then .strict else .lenient

/-- A format has its name in lower case. -/
theorem ofName?_name (f : Format) : Format.ofName? (Text.lower f.name) = some f := by
  cases f <;> decide +kernel

theorem optionText_name (lacking : String) (f : Format) :
    optionText lacking (.text f.name) = .ok f.name := by
  cases f <;> rfl

theorem name_ne_empty (f : Format) : f.name ≠ "" := by
  cases f <;> decide

variable {data v : Value} {s : String}

/-- Writing in a format of a name. -/
theorem serialize_named (v : Value) (f : Format) (pretty strict : Bool) :
    serialize v (.text f.name) pretty strict = write f (layoutOf pretty) (rigorOf strict) v := by
  simp only [serialize, optionText_name, ofName?_name, bind, Except.bind, layoutOf, rigorOf]

/-- Reading in a format of a name, the encoding being the usual one. -/
theorem deserialize_named (f : Format) (text : contents defaultEncoding data = .ok s) :
    deserialize data .null (.text f.name) = decode f s := by
  have encoding : encodingOption .null = .ok defaultEncoding := rfl
  simp only [deserialize, encoding, text, optionText_name, ofName?_name, name_ne_empty, if_false,
    bind, Except.bind]

/-- Reading in a format that the text tells. -/
theorem deserialize_unstated (text : contents defaultEncoding data = .ok s) :
    deserialize data .null .null = decode ((formatOfText? s).getD .json) s := by
  have encoding : encodingOption .null = .ok defaultEncoding := rfl
  have stated : optionText "lower" .null = .ok "" := rfl
  have untold : formatOfType? "" = none := by decide +kernel
  simp only [deserialize, encoding, text, stated, detect?, untold, Option.none_or,
    Option.bind_some, if_true, bind, Except.bind]

end LiveDoc.Document
