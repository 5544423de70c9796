import LiveDoc.Library.Call
import LiveDoc.Proofs.Quiet

/-!
# Faults of the standard library

A call tells what its function reports, unless that is an interruption or a fault without words. Nothing
that the operations of the standard library report is of this kind.
-/

namespace LiveDoc

/-- Whether an operation on values only reports faults that a call can tell. -/
def Tells {α : Type} (result : Except Fault α) : Prop :=
  ∀ f, result = .error f → (Failure.fault f).IsTold

namespace Tells

variable {α β : Type}

theorem ok (a : α) : Tells (.ok a) := by
  rintro f ⟨⟩

theorem error {f : Fault} (told : (Failure.fault f).IsTold) :
    Tells (.error f : Except Fault α) := by
  rintro g ⟨⟩
  exact told

theorem bind {r : Except Fault α} {next : α → Except Fault β} (first : Tells r)
    (later : ∀ a, Tells (next a)) : Tells (r >>= next) := by
  cases r with
  | error f => exact error (first f rfl)
  | ok a => exact later a

theorem ite {p : Prop} [Decidable p] {r s : Except Fault α} (yes : Tells r) (no : Tells s) :
    Tells (if p then r else s) := by
  split
  · exact yes
  · exact no

theorem mapM {next : α → Except Fault β} (each : ∀ a, Tells (next a)) (xs : List α) :
    Tells (xs.mapM next) := by
  induction xs with
  | nil => exact ok []
  | cons x xs ih =>
    rw [List.mapM_cons]
    exact bind (each x) fun y => bind ih fun ys => ok (y :: ys)

end Tells

namespace Value

variable (a b : Value)

/-! ## Arithmetic -/

theorem tells_inapplicable (operator : String) : Tells (inapplicable operator a b) := .error rfl

theorem tells_toFloat : Tells a.toFloat := by
  unfold toFloat
  split
  · exact .ok _
  · split
    · split
      · exact .ok _
      · exact .error rfl
    · exact .error rfl

theorem tells_onNumbers (exact : Int → Int → Int) (rounded : Binary64 → Binary64 → Binary64) :
    Tells (onNumbers exact rounded a b) := by
  unfold onNumbers
  split
  · exact .ok _
  · exact .bind (tells_toFloat a) fun x => .bind (tells_toFloat b) fun y => .ok _

theorem tells_ofSpan (r : Except SpanFault Span) : Tells (ofSpan r) := by
  cases r with
  | ok s => exact .ok _
  | error f => exact .error rfl

theorem tells_ofMoment (m : Option Moment) : Tells (ofMoment m) := by
  cases m with
  | none => exact .error rfl
  | some m => exact .ok _

theorem tells_shiftDate (d : Date) (days : Int) : Tells (shiftDate d days) := by
  unfold shiftDate
  split
  · exact .ok _
  · exact .error rfl

theorem tells_quotient (m n : Int) : Tells (quotient m n) := by
  unfold quotient
  split
  · exact .error rfl
  · split
    · exact .ok _
    · exact .error rfl

theorem tells_add : Tells (a.add b) := by
  unfold add
  split
  · exact tells_onNumbers a b _ _
  · split
    case h_1 | h_2 => exact tells_ofMoment _
    case h_3 | h_4 => exact tells_shiftDate _ _
    case h_5 => exact tells_ofSpan _
    all_goals first | exact .ok _ | exact .error rfl

theorem tells_sub : Tells (a.sub b) := by
  unfold sub
  split
  · exact tells_onNumbers a b _ _
  · split
    case h_1 => exact .ite (.ok _) (.error rfl)
    case h_2 => exact tells_ofMoment _
    case h_4 => exact tells_shiftDate _ _
    case h_5 => exact tells_ofSpan _
    all_goals first | exact .ok _ | exact .error rfl

theorem tells_repetitions (length : Nat) (isText : Bool) (count : Value) :
    Tells (repetitions length isText count) := by
  unfold repetitions
  split
  · exact .error rfl
  · refine .ite (.error rfl) (.ite (.ok _) (.ite ?_ (.ite (.error rfl) (.ok _))))
    cases isText <;> exact .error rfl

/-- What repeats a sequence only reports faults that can be told. -/
theorem tells_repetition {r : Except Fault Value} (found : repetition? a b = some r) : Tells r := by
  unfold repetition? at found
  split at found <;> cases found
  all_goals exact .bind (tells_repetitions _ _ _) fun n => .ok _

theorem tells_eitherRepetition : Tells (((repetition? a b).orElse fun _ => repetition? b a).getD
    (inapplicable "*" a b)) := by
  cases first : repetition? a b with
  | some r => exact tells_repetition a b first
  | none =>
    cases second : repetition? b a with
    | some r => exact tells_repetition b a second
    | none => exact tells_inapplicable a b "*"

theorem tells_mul : Tells (a.mul b) := by
  unfold mul
  split
  · exact tells_onNumbers a b _ _
  · split
    case h_1 | h_2 => exact tells_ofSpan _
    case h_3 =>
      split
      case h_1 | h_2 => exact tells_ofSpan _
      case h_3 => exact tells_eitherRepetition _ _

theorem tells_div : Tells (a.div b) := by
  have divided (x y : Binary64) : Tells (if y.isZero then .error Fault.floatDivisionByZero
      else .ok (Value.float (x.div y))) := .ite (.error rfl) (.ok _)
  unfold div
  split
  · exact tells_quotient _ _
  · split
    · exact tells_ofSpan _
    · exact .bind (tells_toFloat _) fun y => divided _ y
    · exact tells_inapplicable _ _ _
  · split
    · exact tells_quotient _ _
    · exact tells_ofSpan _
    · exact .ite (.bind (tells_toFloat _) fun x => divided x _) (tells_inapplicable _ _ _)
    · exact tells_inapplicable _ _ _

/-! ## Lookup and text -/

theorem tells_lookupKey (es : Entries) (key : Value) : Tells (lookupKey es key) := by
  unfold lookupKey
  split
  · exact .error rfl
  · exact .ok _

theorem tells_index? (label : Value) : Tells (index? label) := by
  unfold index?
  split
  case h_2 =>
    split
    · exact .ok _
    · exact .error rfl
  all_goals exact .ok _

theorem tells_itemUnder (xs : List Value) (label : Value) : Tells (itemUnder xs label) :=
  .bind (tells_index? label) fun i? => by cases i? <;> exact .ok _

theorem tells_lookUp (label : Value) (attributes : Attributes) : Tells (a.lookUp label attributes) := by
  unfold lookUp
  split
  case h_1 => exact .bind (tells_lookupKey _ _) fun v? => .ok _
  case h_2 | h_3 => exact tells_itemUnder _ _
  all_goals exact .ok _

end Value

theorem StandardName.tells_textOf (v : Value) : Tells (textOf v) := .ite (.error rfl) (.ok _)

/-! ## Dates -/

namespace Moment

theorem tells_naive (m : Moment) : Tells m.naive := by
  unfold naive
  split
  · exact .ok _
  · exact .error rfl

theorem tells_ofSeconds (x : Binary64) : Tells (ofSeconds x) := by
  unfold ofSeconds
  split
  · exact .error rfl
  · exact .error rfl
  · refine .ite (.error rfl) (.ite (.error rfl) ?_)
    split
    · exact .ok _
    · exact .error rfl

theorem tells_ofText (s : String) : Tells (ofText s) := by
  unfold ofText
  split
  · exact tells_naive _
  · split
    · exact .ok _
    · exact .error rfl

theorem tells_ofValue (now : Moment) (v : Value) : Tells (ofValue now v) := by
  unfold ofValue
  split
  case h_2 | h_3 =>
    refine .bind (Value.tells_div _ _) fun quotient => ?_
    split
    · exact tells_ofSeconds _
    · exact .error rfl
  case h_4 => exact tells_naive _
  case h_6 => exact tells_ofText _
  all_goals first | exact .ok _ | exact .error rfl

end Moment

theorem Span.tells_ofDaysValue (days : Value) : Tells (Span.ofDaysValue days) := by
  unfold ofDaysValue
  dsimp only
  split
  case h_1 x =>
    cases ofDaysFloat x with
    | ok s => exact .ok _
    | error f => exact .error rfl
  case h_2 =>
    split
    · split
      · exact .ok _
      · exact .error rfl
    · exact .error rfl

theorem Value.tells_addDays (now : Moment) (v days : Value) : Tells (v.addDays now days) := by
  have moved (m : Moment) : Tells (do
      let s ← Span.ofDaysValue days
      ofMoment (m.add? s)) := .bind (Span.tells_ofDaysValue days) fun s => tells_ofMoment _
  unfold addDays
  dsimp only
  split
  · exact moved _
  · exact .bind (Moment.tells_ofValue now v) moved

/-! ## Functions of the library -/

open Value in
/-- The functions of the standard library only report faults that can be told. -/
theorem StandardName.tells_apply (now : Moment) (n : StandardName) (arguments : List Value)
    (attributes : Attributes) : Tells (n.apply now arguments attributes) := by
  unfold StandardName.apply
  split
  case h_1 a b => exact tells_add a b
  case h_2 a b => exact tells_sub a b
  case h_3 a b => exact tells_mul a b
  case h_4 a b => exact tells_div a b
  case h_5 label v => exact tells_lookUp v label attributes
  case h_6 label => exact .bind (tells_textOf label) fun s => .ok _
  case h_8 => exact .bind (.mapM tells_textOf arguments) fun ss => .ok _
  case h_11 v => exact .bind (Moment.tells_ofValue now v) fun m => .ok _
  case h_12 v days => exact tells_addDays now v days
  all_goals first | exact .ok _ | exact .error rfl

theorem MethodName.tells_textsFrom (index : Nat) (vs : List Value) : Tells (textsFrom index vs) := by
  induction vs generalizing index with
  | nil => exact .ok _
  | cons v vs ih =>
    unfold textsFrom
    split
    · exact .ok _
    · rename_i same
      cases same
      exact .bind (ih _) fun ss => .ok _
    · exact .error rfl

/-- So do methods. -/
theorem MethodName.tells_apply (m : MethodName) (captured arguments : List Value) :
    Tells (m.apply captured arguments) := by
  unfold MethodName.apply
  split
  case h_1 =>
    split
    · exact .bind (tells_textsFrom 0 _) fun ss => .ok _
    · exact .error rfl
  all_goals exact .ok _

/-- So does a check of a count of arguments. -/
theorem Parameters.tells_check (routine : String) (bound : Nat) (ps : Parameters) (given : Nat) :
    Tells (ps.check routine bound given) := .ite (.error rfl) (.ite (.error rfl) (.ok _))

theorem Routine.tells_checkCount (r : Routine) (given : Nat) : Tells (r.checkCount given) := by
  unfold checkCount
  dsimp only
  split
  · exact .ite (.ok _) (.error rfl)
  · exact .ok _
  · exact .ite (.ok _) (.error rfl)
  · exact Parameters.tells_check _ _ _ _

end LiveDoc
