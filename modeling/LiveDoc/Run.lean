import LiveDoc.Failure

/-!
# Runs

A run takes a course: it shows events, its engine invokes functions, and it ends with a value or a
failure. The course may depend on all that was shown before the run started, so a function can keep
a memory of what came before it. Joining runs joins their courses, and a failure keeps the course
up to it.
-/

namespace LiveDoc

/-- What a run shows to the outside before it ends. -/
inductive Event where
  | observed (arguments : List Value)
  | diagnostic (message : Value)
  | hooked (key mapping : Value)
  | warning (message : String)
  | trace (line : String)
  | reported (text : String)
  | printed (text : String)

namespace Event

/-- What an event writes to the error output. -/
def errorText : Event → String
  | .warning m => "Warning: " ++ m ++ "\n"
  | .trace line => "[DBG] " ++ line ++ "\n"
  | .reported s => s
  | _ => ""

/-- What an event writes to the standard output. -/
def outputText : Event → String
  | .printed s => s
  | _ => ""

end Event

/-- The invocation of a function for a call node: its name, its resolved arguments without the data,
what the function itself came to, and what came of its result once that was applied to the data if
need be. -/
structure Invocation where
  name : String
  arguments : List Value
  returned : Except Failure Value
  outcome : Except Failure Value

/-- What a run shows, which functions its engine invokes, and how it ends. -/
structure Course (α : Type) where
  log : List Event
  calls : List Invocation
  outcome : Except Failure α

/-- A run: the course it takes after the events that were shown before it. -/
@[ext]
structure Run (α : Type) where
  after : List Event → Course α

namespace Run

/-- What a run shows when nothing was shown before it. -/
def log {α : Type} (r : Run α) : List Event := (r.after []).log

/-- How a run ends when nothing was shown before it. -/
def outcome {α : Type} (r : Run α) : Except Failure α := (r.after []).outcome

/-- The run that ends with a value and shows nothing. -/
def done {α : Type} (a : α) : Run α := ⟨fun _ => ⟨[], [], .ok a⟩⟩

/-- The run that fails and shows nothing. -/
def fail {α : Type} (f : Failure) : Run α := ⟨fun _ => ⟨[], [], .error f⟩⟩

/-- A run, and then the one that its value chooses. -/
def andThen {α β : Type} (r : Run α) (f : α → Run β) : Run β :=
  ⟨fun past =>
    let first := r.after past
    match first.outcome with
    | .ok a =>
      let next := (f a).after (past ++ first.log)
      ⟨first.log ++ next.log, first.calls ++ next.calls, next.outcome⟩
    | .error e => ⟨first.log, first.calls, .error e⟩⟩

instance : Monad Run where
  pure := done
  bind := andThen

/-- The run that shows one event. -/
def emit (e : Event) : Run Unit := ⟨fun _ => ⟨[e], [], .ok ()⟩⟩

/-- The run that fails with a fault. -/
def fault {α : Type} (f : Fault) : Run α := fail (.fault f)

/-- The run of an operation on values. -/
def ofFault {α : Type} : Except Fault α → Run α
  | .ok a => done a
  | .error f => fault f

/-- The run of an operation that reports failures. -/
def ofExcept {α : Type} : Except Failure α → Run α
  | .ok a => done a
  | .error f => fail f

/-- A run whose failure is replaced by the outcome of a handler. -/
def handle {α : Type} (r : Run α) (f : Failure → Run α) : Run α :=
  ⟨fun past =>
    let first := r.after past
    match first.outcome with
    | .ok _ => first
    | .error e =>
      let next := (f e).after (past ++ first.log)
      ⟨first.log ++ next.log, first.calls ++ next.calls, next.outcome⟩⟩

/-- A run that keeps the invocations within it to itself. -/
def apart {α : Type} (r : Run α) : Run α := ⟨fun past => { r.after past with calls := [] }⟩

/-- The invocation of a function, `body`, whose result `finish` completes. What the function itself
invokes is kept apart. -/
def invocation (name : String) (arguments : List Value) (body : Run Value)
    (finish : Value → Run Value) : Run Value :=
  ⟨fun past =>
    let first := body.after past
    match first.outcome with
    | .ok v =>
      let next := (finish v).after (past ++ first.log)
      ⟨first.log ++ next.log, [⟨name, arguments, .ok v, next.outcome⟩], next.outcome⟩
    | .error e => ⟨first.log, [⟨name, arguments, .error e, .error e⟩], .error e⟩⟩

/-- A run for every item, in order. -/
def each {α β : Type} (f : α → Run β) : List α → Run (List β)
  | [] => done []
  | x :: xs => (f x).andThen fun y => (each f xs).andThen fun ys => done (y :: ys)

end Run

end LiveDoc
