import LiveDoc.Document

/-!
# Files

The files that documents are read from: contents by path, relative to one directory or from the
root. Text files end their lines in any of three ways, which all read as a line feed.
-/

namespace LiveDoc

/-- Contents by path. -/
abbrev Folder := List (String × List UInt8)

/-- The parts of a path, from a directory on. -/
abbrev Trail := List (List Char)

namespace Folder

/-- The part that stands for the root. -/
def root : List Char := ['/']

/-- The part that leads back to the directory above. -/
def up : List Char := ['.', '.']

/-- The parts of a path that name something. -/
def names (path : String) : Trail :=
  (Text.splitAt '/' path.toList).filter fun p => !p.isEmpty && p != ['.']

/-- The parts of a path, the root being one of them. -/
def trail (path : String) : Trail :=
  if path.toList.head? = some '/' then root :: names path else names path

/-- Whether parts lead to a directory: the folder itself, one above it, or one that holds files. -/
def isDirectory (d : Folder) (ps : Trail) : Bool :=
  ps == [root] || ps.all (· == up) ||
    d.any fun f => ps.length < (trail f.1).length && (trail f.1).take ps.length == ps

/-- The directory above another one. -/
def above (ps : Trail) : Trail :=
  if ps == [root] then ps else if ps.all (· == up) then up :: ps else ps.dropLast

/-- Follows the parts of a path from a directory; a part may lead back. -/
def walk (d : Folder) (path : String) : Trail → Trail → Except Fault Trail
  | here, [] => .ok here
  | here, p :: ps =>
    if !d.isDirectory here then
      .error (if d.any fun f => trail f.1 == here then .notADirectory path else .noSuchFile path)
    else walk d path (if p == up then above here else here ++ [p]) ps

/-- The bytes of the file at a path. -/
def bytes (d : Folder) (path : String) : Except Fault (List UInt8) := do
  if path.toList.contains '\x00' then .error .nullInPath
  else if path.isEmpty then .error (.noSuchFile path)
  else
    let ps ← walk d path [] (trail path)
    match d.find? fun f => trail f.1 == ps with
    | some f => if path.toList.getLast? = some '/' then .error (.notADirectory path) else .ok f.2
    | none => .error (if d.isDirectory ps then .isDirectory path else .noSuchFile path)

/-- A text whose lines end in line feeds only. -/
def unifyLineEnds : List Char → List Char
  | '\r' :: '\n' :: cs => '\n' :: unifyLineEnds cs
  | '\r' :: cs => '\n' :: unifyLineEnds cs
  | c :: cs => c :: unifyLineEnds cs
  | [] => []

/-- The text of the file at a path in an encoding. -/
def text (d : Folder) (path encoding : String) : Except Fault String := do
  let bs ← d.bytes path
  let s ← Document.decodeBytes encoding bs
  .ok (String.ofList (unifyLineEnds s.toList))

/-- The extension of a path, with its point: what follows the last point in a name that does not
consist of points up to there. -/
def extension (path : String) : String :=
  let name := ((Text.splitAt '/' path.toList).getLastD []).dropWhile (· == '.')
  if name.contains '.' then
    String.ofList ('.' :: (name.reverse.takeWhile (· != '.')).reverse)
  else ""

/-- The formats that extensions tell. -/
def extensions : List (String × Format) := [(".json", .json), (".yaml", .yaml), (".yml", .yaml)]

/-- The format that a path tells by its extension. -/
def format? (path : String) : Option Format := extensions.lookup (Text.lower (extension path))

/-- The value of the document at a path; without a format it is its text. -/
def document (d : Folder) (path encoding : String) : Except Failure Value := do
  match d.text path encoding with
  | .error f => .error (.fault f)
  | .ok s => match format? path with
    | none => .ok (.text s)
    | some f => Document.decode f s

/-- A path without parts that name nothing. -/
def tidy (path : String) : String :=
  let start :=
    match path.toList.takeWhile (· == '/') with
    | [] => ""
    | ['/', '/'] => "//"
    | _ => "/"
  let s := start ++ "/".intercalate ((names path).map String.ofList)
  if s.isEmpty then "." else s

end Folder

end LiveDoc
