import LiveDoc.Transform
import LiveDoc.Proofs.Invocations

/-!
# The course of a transformation

A transformation first prepares an engine and then runs it on the document. Preparing invokes no
function for a call node, so the invocations and the outcome are those of the run, which starts after
everything that was shown while the engine was prepared.
-/

namespace LiveDoc

/-- Whether a run never tells an invocation. -/
def Run.Silent {α : Type} (r : Run α) : Prop := ∀ past, (r.after past).calls = []

namespace Run

variable {α β : Type}

theorem silent_done (a : α) : (done a).Silent := fun _ => rfl

theorem silent_fault (f : Fault) : (fault f : Run α).Silent := fun _ => rfl

/-- What keeps its invocations apart tells none. -/
theorem silent_apart (r : Run α) : r.apart.Silent := fun _ => rfl

/-- Silent runs that follow one another are silent. -/
theorem silent_andThen {r : Run α} {f : α → Run β} (first : r.Silent) (later : ∀ a, (f a).Silent) :
    (r.andThen f).Silent := by
  intro past
  cases ended : (r.after past).outcome with
  | error e =>
    rw [after_andThen_of_error ended]
    exact first past
  | ok a =>
    rw [after_andThen_of_ok ended]
    simp only [Course.followedBy, first past, later a _, List.append_nil]

end Run

namespace Engine

/-- Going through a text as a tree goes through what it decodes to. -/
theorem tree_text (s : String) (c : Config) : tree (.text s) c = Document.decode c.format s := by
  have text : (Value.text s).isText = true := rfl
  simp only [tree, text, if_true, Document.read, Document.contents, bind, Except.bind]

/-- Making the tags of functions is silent. -/
theorem silent_addTags (call : Caller) (tag : Value) (names : List String) (index : TagIndex) :
    (addTags call tag names index).Silent := by
  induction names generalizing index with
  | nil => exact Run.silent_done index
  | cons name names ih =>
    refine Run.silent_andThen (Run.silent_apart _) fun t => ?_
    split
    · exact ih _
    · exact Run.silent_fault _
    · exact ih _

/-- Preparing an engine is silent. -/
theorem silent_prepare (call : Caller) (tracing : Bool) (c : Config) (data : Value) :
    (prepare call tracing c data).Silent := by
  refine Run.silent_andThen ?_ fun _ =>
    Run.silent_andThen (silent_addTags call c.tag _ []) fun index => Run.silent_done _
  unfold diagnose
  split
  · exact Run.silent_andThen (Run.silent_apart _) fun _ => Run.silent_done ()
  · exact Run.silent_done ()

/-- A prepared engine has the configuration that it was prepared with, and calls functions in the same
way. -/
theorem prepare_made {call : Caller} {tracing : Bool} {c : Config} {data : Value} {e : Engine}
    (prepared : (prepare call tracing c data).Yields e) : e.config = c ∧ e.call = call := by
  obtain ⟨_, -, made⟩ := Run.yields_andThen prepared
  obtain ⟨_, -, made⟩ := Run.yields_andThen made
  rw [← Run.yields_done.mp made]
  exact ⟨rfl, rfl⟩

/-- What the trace shows about the mode of a transformation. -/
def modeLine (c : Config) (document : Value) : String :=
  "transform mode " ++ (Mode.select document c).name ++ " input " ++ document.typeName

/-- What a transformation does before its engine runs: it prepares the engine and shows the mode while
tracing. -/
def enter (call : Caller) (tracing : Bool) (c : Config) (document data : Value) : Run Engine :=
  (prepare call tracing c data).andThen fun e =>
    (trace tracing (modeLine c document)).andThen fun _ => .done e

/-- A transformation enters and then runs the engine on the document. -/
theorem transformWith_eq (call : Caller) (tracing : Bool) (c : Config) (document data : Value) :
    transformWith call tracing c document data =
      (enter call tracing c document data).andThen fun e => e.run (Mode.select document c) document := by
  simp only [enter, Run.andThen_assoc, Run.done_andThen]
  rfl

theorem silent_enter (call : Caller) (tracing : Bool) (c : Config) (document data : Value) :
    (enter call tracing c document data).Silent :=
  Run.silent_andThen (silent_prepare call tracing c data) fun e =>
    Run.silent_andThen (fun past => (trace_outcome tracing _ past).2) fun _ => Run.silent_done e

/-- Whether a transformation comes to run an engine, and what was shown by then. -/
structure Starts (call : Caller) (tracing : Bool) (c : Config) (document data : Value)
    (past : List Event) (e : Engine) (start : List Event) : Prop where
  entered : ((enter call tracing c document data).after past).outcome = .ok e
  shown : start = past ++ ((enter call tracing c document data).after past).log

variable {call : Caller} {tracing : Bool} {c : Config} {document data : Value}
  {past start : List Event} {e : Engine}

/-- The engine that a transformation runs has its configuration. -/
theorem Starts.config (starts : Starts call tracing c document data past e start) : e.config = c := by
  obtain ⟨f, prepared, entered⟩ := Run.yields_andThen ⟨past, starts.entered⟩
  obtain ⟨_, -, entered⟩ := Run.yields_andThen entered
  rw [← Run.yields_done.mp entered]
  exact (prepare_made prepared).1

/-- A transformation comes to run the engine that it has prepared, after the line about its mode. -/
theorem starts_of_prepared {log : List Event}
    (prepared : ((prepare call tracing c data).after past).outcome = .ok e)
    (shown : log = past ++ ((prepare call tracing c data).after past).log) :
    Starts call tracing c document data past e
      (log ++ ((trace tracing (modeLine c document)).after log).log) := by
  subst shown
  have entered : (enter call tracing c document data).after past =
      ((prepare call tracing c data).after past).followedBy (((trace tracing (modeLine c
        document)).andThen fun _ => .done e).after _) := Run.after_andThen_of_ok prepared _
  rw [Run.after_andThen_of_ok (trace_outcome tracing _ _).1] at entered
  constructor
  · rw [entered]
    rfl
  · simp [entered, Course.followedBy]

/-- A transformation that comes to run its engine invokes what the engine invokes, and ends as the
engine does. -/
theorem Starts.transform (starts : Starts call tracing c document data past e start) :
    ((transformWith call tracing c document data).after past).calls =
        ((e.run (Mode.select document c) document).after start).calls ∧
      ((transformWith call tracing c document data).after past).outcome =
        ((e.run (Mode.select document c) document).after start).outcome := by
  rw [transformWith_eq, Run.after_andThen_of_ok starts.entered, starts.shown]
  simp only [Course.followedBy, silent_enter call tracing c document data past, List.nil_append,
    and_self]

/-- Whether a transformation comes to run an engine that passes a test, together with what was shown
by then. -/
def startsAt (call : Caller) (tracing : Bool) (c : Config) (document data : Value)
    (past : List Event) (test : Engine → List Event → Bool) : Bool :=
  match (enter call tracing c document data).after past with
  | ⟨log, _, .ok e⟩ => test e (past ++ log)
  | _ => false

variable {test : Engine → List Event → Bool}

/-- A passed test has an engine that passes it. -/
theorem exists_starts (passed : startsAt call tracing c document data past test = true) :
    ∃ e start, Starts call tracing c document data past e start ∧ test e start = true := by
  unfold startsAt at passed
  split at passed
  · rename_i log calls e course
    exact ⟨e, past ++ log, ⟨by rw [course], by rw [course]⟩, passed⟩
  · contradiction

/-- The engine that a transformation runs passes a test that is passed. -/
theorem Starts.passes (starts : Starts call tracing c document data past e start)
    (passed : startsAt call tracing c document data past test = true) : test e start = true := by
  have entered := starts.entered
  rw [starts.shown]
  unfold startsAt at passed
  split at passed
  · rename_i log calls f course
    rw [course] at entered ⊢
    rwa [← Except.ok.inj entered]
  · contradiction

end Engine

end LiveDoc
