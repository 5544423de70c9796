import LiveDoc.Text.CaseTable
import LiveDoc.Text.Printable

/-!
# Lower, upper and title case of texts

The full Unicode mappings: a character may become several, and a capital sigma at the end of a word
becomes the final small sigma.
-/

namespace LiveDoc.Text

/-- The image of a code point under the run it belongs to, or itself. -/
def shift (runs : List (Nat × Nat × Nat × Int)) (c : Nat) : Nat :=
  match runs.find? fun r => r.1 ≤ c && c ≤ r.2.1 && (c - r.1) % r.2.2.1 == 0 with
  | some r => (c + r.2.2.2).toNat
  | none => c

/-- The capital sigma. -/
def capitalSigma : Char := 'Σ'

/-- The lower-case form of a character, whatever stands around it. -/
def lowerChar (c : Char) : List Char :=
  if c.toNat < 128 then [c.toLower]
  else if c.toNat = 304 then ['i', Char.ofNat 775]
  else [Char.ofNat (shift lowerRuns c.toNat)]

/-- The upper-case form of a character. -/
def upperChar (c : Char) : List Char :=
  if c.toNat < 128 then [c.toUpper]
  else match upperExceptions.lookup c.toNat with
    | some cs => cs.map Char.ofNat
    | none => [Char.ofNat (shift upperRuns c.toNat)]

/-- The title-case form of a character. -/
def titleChar (c : Char) : List Char :=
  if c.toNat < 128 then [c.toUpper]
  else match titleExceptions.lookup c.toNat with
    | some cs => cs.map Char.ofNat
    | none => upperChar c

/-- Whether the nearest character that casing does not look through is cased. -/
def nextIsCased (cs : List Char) : Bool :=
  match cs.dropWhile fun c => within caseIgnorableBoundaries c.toNat with
  | [] => false
  | c :: _ => within casedBoundaries c.toNat

/-- The lower-case form of the characters that follow `before` (nearest first). -/
def lowerFrom : List Char → List Char → List Char
  | _, [] => []
  | before, c :: rest =>
    (if c = capitalSigma then
        [if nextIsCased before && !nextIsCased rest then 'ς' else 'σ']
      else lowerChar c) ++ lowerFrom (c :: before) rest

/-- The lower-case form of a text. -/
def lower (s : String) : String := String.ofList (lowerFrom [] s.toList)

/-- The upper-case form of a text. -/
def upper (s : String) : String := String.ofList (s.toList.flatMap upperChar)

/-- The first character in title case and the others in lower case. -/
def capitalize (s : String) : String :=
  match s.toList with
  | [] => ""
  | c :: rest => String.ofList (titleChar c ++ lowerFrom [c] rest)

end LiveDoc.Text
