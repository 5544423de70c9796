import LiveDoc.Failure

/-!
# Argument counts

A routine takes as many arguments as it has parameters, fewer where parameters are optional, and any
number where it is variadic. A bound routine counts the argument it already has.
-/

namespace LiveDoc

namespace Parameters

/-- The number of arguments that must be given. -/
def least (ps : Parameters) : Nat := ps.names.length - ps.optional

/-- The fault of a count of arguments, if the parameters do not fit it. -/
def check (routine : String) (bound : Nat) (ps : Parameters) (given : Nat) : Except Fault Unit :=
  if given < ps.least then
    .error (.missingArguments routine ((ps.names.take ps.least).drop given))
  else if ps.names.length < given && !ps.variadic then
    .error (.tooManyArguments routine (bound + ps.least) (bound + ps.names.length) (bound + given))
  else .ok ()

/-- The arguments in the order of the parameters, from those given by place and those given by name.
A name must be that of a parameter that has no argument yet. -/
def bind (routine : String) (bound : Nat) (ps : Parameters) (given : List Value)
    (named : List (String × Value)) : Except Fault (List (Option Value)) := do
  let taken := ps.names.take given.length
  match named.find? fun n => taken.contains n.1 || !ps.names.contains n.1 with
  | some n =>
    .error (if taken.contains n.1 then .repeatedArgument routine n.1
      else .keywordArgument routine n.1)
  | none =>
    if ps.names.length < given.length then ps.check routine bound given.length
    let later := (ps.names.drop given.length).map fun n => named.lookup n
    let missing := ((ps.names.take ps.least).drop given.length).filter fun n =>
      (named.lookup n).isNone
    if missing.isEmpty then .ok (given.map some ++ later)
    else .error (.missingArguments routine missing)

end Parameters

namespace Routine

/-- The fault of a count of arguments, if the routine does not take it. Of a method of which no more
than its name is known, the method itself checks the count. -/
def checkCount (r : Routine) (given : Nat) : Except Fault Unit :=
  let p := r.profile
  match r with
  | .method .join =>
    if given = 1 then .ok () else .error (.oneArgument p.qualified given)
  | .method (.other _) => .ok ()
  | .method _ => if given = 0 then .ok () else .error (.noArguments p.qualified given)
  | _ => p.parameters.check p.qualified (if p.bound then 1 else 0) given

end Routine

end LiveDoc
