/-!
# Faults of templates

A text is no template if a section is closed that is not the open one, or if a tag that changes the
delimiters does not name two of them. A section that is never closed is no fault.
-/

namespace LiveDoc.Mustache

/-- Why a text is not a template. `found` closes a section at a position where `expected`, if any,
is the section that is open. -/
inductive Fault where
  | mismatch (position : Nat) (found : String) (expected : Option String)
  | delimiters
deriving DecidableEq, Repr

/-- A tag as it is written with the usual delimiters. -/
def braced (mark key : String) : String := "\x7b\x7b" ++ mark ++ key ++ "\x7d\x7d"

/-- The fault in words. -/
def Fault.message : Fault → String
  | .mismatch position found expected =>
    "Section end tag mismatch at position " ++ toString position ++ ". Found " ++
      braced "/" found ++ ", expected " ++
      (match expected with | some key => braced "/" key | none => braced "#" found)
  | .delimiters => "list index out of range"

end LiveDoc.Mustache
