import LiveDoc.Mustache.Render
import LiveDoc.Proofs.PlainValues
import LiveDoc.Proofs.Quiet

/-!
# Rendering plain data

A template looks at its data and may call what it finds there. Plain data hold nothing to call, so
rendering a template with them is quiet: it shows nothing, and its text is a matter of the template and
the data, however anything else would be called.
-/

namespace LiveDoc

open Value

namespace Mustache

variable {sets : Bool}

theorem quiet_textOf (v : Value) : (textOf v).Quiet (fun _ => True) Failure.IsTold (textOf v) := by
  unfold textOf
  split
  · exact Run.quiet_done trivial
  · split
    · exact Run.quiet_done trivial
    · exact Run.quiet_fault rfl
  · split
    · exact Run.quiet_fault rfl
    · exact Run.quiet_done trivial

/-- The values that a block is rendered for are plain if its value is. -/
theorem allPlain_blockValues {v : Value} (whole : v.isPlain sets = true) :
    allPlain sets (blockValues v) = true := by
  have single : allPlain sets [v] = true := by simp [allPlain, whole]
  unfold blockValues
  split
  · split
    · exact single
    · exact single
    · exact single
    · cases items : v.items? with
      | none => exact single
      | some xs => exact allPlain_items? whole items
  · rfl

variable {call other : LiveDoc.Caller}

/-- What a plain context holds under a name is found quietly, as it cannot be called. -/
theorem quiet_member? {context : Value} (whole : context.isPlain sets = true) (name : String) :
    (member? call context name).Quiet (fun found => ∀ v ∈ found, v.isPlain sets = true) Failure.IsTold
      (member? other context name) := by
  have nothing : ∀ v ∈ (none : Option Value), v.isPlain sets = true := fun v none => nomatch none
  unfold member?
  split
  · refine Run.quiet_done fun v found => ?_
    exact isPlain_get? whole found
  · exact Run.quiet_done nothing
  · exact Run.quiet_done nothing
  · exact Run.quiet_done nothing
  · split
    · have plain := isPlain_part? whole ‹context.part? name = some _›
      rw [isCallable_of_isPlain plain, if_neg Bool.false_ne_true]
      refine Run.quiet_done ?_
      rintro v ⟨⟩
      exact plain
    · exact Run.quiet_done fun v found => isPlain_answer? found

theorem quiet_lookUp {stack : Stack} (all : allPlain sets stack = true) (name : String) :
    (lookUp call name stack).Quiet (fun found => ∀ v ∈ found, v.isPlain sets = true) Failure.IsTold
      (lookUp other name stack) := by
  induction stack with
  | nil => exact Run.quiet_done fun v none => nomatch none
  | cons context stack ih =>
    have parts := Bool.and_eq_true_iff.mp all
    refine Run.quiet_andThen (quiet_member? parts.1 name) fun found plain => ?_
    cases found with
    | none => exact ih parts.2
    | some v => exact Run.quiet_done plain

theorem quiet_follow {v : Value} (whole : v.isPlain sets = true) (names : List String) :
    (follow call v names).Quiet (fun found => ∀ w ∈ found, w.isPlain sets = true) Failure.IsTold
      (follow other v names) := by
  induction names generalizing v with
  | nil =>
    refine Run.quiet_done ?_
    rintro w ⟨⟩
    exact whole
  | cons name names ih =>
    refine Run.quiet_andThen (quiet_member? whole name) fun found plain => ?_
    cases found with
    | none => exact Run.quiet_done plain
    | some w => exact ih (plain w rfl)

/-- The value of a key is found quietly in plain contexts. -/
theorem quiet_resolve {stack : Stack} (all : allPlain sets stack = true) (key : String) :
    (resolve call stack key).Quiet (·.isPlain sets = true) Failure.IsTold (resolve other stack key) := by
  have filled (found : Option Value) (plain : ∀ v ∈ found, v.isPlain sets = true) :
      (found.getD (.text "")).isPlain sets = true := by
    cases found with
    | none => rfl
    | some v => exact plain v rfl
  refine Run.quiet_andThen ?_ fun found plain => Run.quiet_done (filled found plain)
  split
  · exact Run.quiet_done fun v first => allPlain_iff.mp all v (List.mem_of_mem_head? first)
  · split
    · exact Run.quiet_done fun v none => by cases none
    · refine Run.quiet_andThen (quiet_lookUp all _) fun found plain => ?_
      cases found with
      | none => exact Run.quiet_done plain
      | some v => exact quiet_follow (plain v rfl) _

variable {again further : Again}

mutual

/-- A piece is rendered quietly in plain contexts: nothing there gives a template of its own. -/
theorem quiet_piece {stack : Stack} (all : allPlain sets stack = true) : ∀ p : Piece,
    (piece call again stack p).Quiet (fun _ => True) Failure.IsTold (piece other further stack p)
  | .text cs => Run.quiet_done trivial
  | .slot key escaped => by
    unfold piece
    refine Run.quiet_andThen (quiet_resolve all key) fun v plain => ?_
    simp only [isCallable_of_isPlain plain]
    exact Run.quiet_andThen (quiet_textOf v) fun cs _ => Run.quiet_done trivial
  | .block key body source delimiters => by
    unfold piece
    refine Run.quiet_andThen (quiet_resolve all key) fun v plain => ?_
    have values := allPlain_iff.mp (allPlain_blockValues plain)
    refine Run.quiet_andThen (Run.quiet_each fun x inside =>
      (?_ : Run.Quiet (fun _ => True) Failure.IsTold _ _)) fun _ _ => Run.quiet_done trivial
    have item := values x inside
    have extended : allPlain sets (x :: stack) = true := Bool.and_eq_true_iff.mpr ⟨item, all⟩
    rw [isCallable_of_isPlain item, if_neg Bool.false_ne_true, if_neg Bool.false_ne_true]
    exact quiet_pieces extended body
  | .inverted key body => by
    unfold piece
    refine Run.quiet_andThen (quiet_resolve all key) fun v _ => ?_
    split
    · exact Run.quiet_done trivial
    · exact quiet_pieces all body

theorem quiet_pieces {stack : Stack} (all : allPlain sets stack = true) : ∀ ps : List Piece,
    (pieces call again stack ps).Quiet (fun _ => True) Failure.IsTold (pieces other further stack ps)
  | [] => Run.quiet_done trivial
  | p :: ps =>
    Run.quiet_andThen (quiet_piece all p) fun _ _ =>
      Run.quiet_andThen (quiet_pieces all ps) fun _ _ => Run.quiet_done trivial

end

theorem quiet_renderIn {stack : Stack} (all : allPlain sets stack = true) (depth : Nat)
    (delimiters : Delimiters) (template : List Char) :
    (renderIn call depth delimiters template stack).Quiet (fun _ => True) Failure.IsTold
      (renderIn other depth delimiters template stack) := by
  cases depth with
  | zero => exact Run.quiet_fault rfl
  | succ depth =>
    unfold renderIn
    split
    · exact quiet_pieces all _
    · exact Run.quiet_fault rfl

end Mustache

/-- Whether rendering a template with plain data is quiet, however callable values are called. -/
def RendersPurely (sets : Bool) (render : Caller → String → Value → Run Value) : Prop :=
  ∀ (call other : Caller) (template : String) (data : Value), data.isPlain sets = true →
    (render call template data).Quiet (fun _ => True) Failure.IsTold (render other template data)

/-- The templates that are modelled here are rendered in this way. -/
theorem Mustache.rendersPurely (sets : Bool) : RendersPurely sets render := by
  intro call other template data plain
  unfold render
  have context (v : Value) (own : v.isPlain sets = true) : allPlain sets [v] = true := by
    simp [allPlain, own]
  refine Run.quiet_andThen (quiet_renderIn (context _ ?_) _ _ _) fun cs _ => Run.quiet_done trivial
  split
  · rfl
  · exact plain

end LiveDoc
