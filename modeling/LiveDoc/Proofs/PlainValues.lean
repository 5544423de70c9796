import LiveDoc.Library.Lookup
import Mathlib.Tactic.SplitIfs

/-!
# Plain values

A plain value holds no functions. What it holds can be told from it and does not act, so all that a
reader of it can do is to look at its parts, and these are plain as well. Sets are told apart, since the
order of their members is not told by what they are.
-/

namespace LiveDoc

namespace Value

mutual

/-- Whether a value holds no functions, and no sets unless these are let in. -/
def isPlain (sets : Bool) : Value → Bool
  | .list xs => allPlain sets xs
  | .tuple xs => allPlain sets xs
  | .set xs => sets && allPlain sets xs
  | .mapping es => entriesPlain sets es
  | .routine .. => false
  | .deferred .. => false
  | .record .. => false
  | _ => true

/-- Whether this holds of the items of a list. -/
def allPlain (sets : Bool) : List Value → Bool
  | [] => true
  | x :: xs => x.isPlain sets && allPlain sets xs

/-- Whether this holds of the keys and values of a mapping. -/
def entriesPlain (sets : Bool) : List (Value × Value) → Bool
  | [] => true
  | (k, v) :: es => k.isPlain sets && v.isPlain sets && entriesPlain sets es

end

variable {sets : Bool}

theorem allPlain_iff {xs : List Value} :
    allPlain sets xs = true ↔ ∀ x ∈ xs, x.isPlain sets = true := by
  induction xs with
  | nil => simp [allPlain]
  | cons x xs ih => simp [allPlain, ih]

theorem entriesPlain_cons {e : Value × Value} {es : List (Value × Value)} :
    entriesPlain sets (e :: es) = true ↔
      (e.1.isPlain sets = true ∧ e.2.isPlain sets = true) ∧ entriesPlain sets es = true := by
  simp only [entriesPlain, Bool.and_eq_true]

theorem entriesPlain_iff {es : List (Value × Value)} :
    entriesPlain sets es = true ↔ ∀ e ∈ es, e.1.isPlain sets = true ∧ e.2.isPlain sets = true := by
  induction es with
  | nil => simp [entriesPlain]
  | cons e es ih => rw [entriesPlain_cons, ih, List.forall_mem_cons]

variable {a b v : Value} {xs : List Value} {es : Entries}

/-- A plain value cannot be called. -/
theorem isCallable_of_isPlain (plain : a.isPlain sets = true) : a.isCallable = false := by
  cases a <;> first | rfl | cases plain

/-! ## Parts -/

theorem isPlain_get? {key : Value} (all : entriesPlain sets es = true)
    (found : es.get? key = some v) : v.isPlain sets = true := by
  obtain ⟨e, first, rfl⟩ := Option.map_eq_some_iff.mp found
  exact (entriesPlain_iff.mp all e (List.mem_of_find?_eq_some first)).2

theorem isPlain_integerPart? {n : Int} {name : String} (found : integerPart? n name = some v) :
    v.isPlain sets = true := by
  unfold integerPart? at found
  split_ifs at found <;> cases found <;> rfl

theorem isPlain_datePart? {d : Date} {name : String} (found : datePart? d name = some v) :
    v.isPlain sets = true := by
  unfold datePart? at found
  split_ifs at found <;> cases found <;> rfl

theorem isPlain_ofZone (z : Option Zone) : (ofZone z).isPlain sets = true := by
  cases z <;> rfl

theorem isPlain_clockPart? {t : ClockTime} {name : String} (found : clockPart? t name = some v) :
    v.isPlain sets = true := by
  unfold clockPart? at found
  split_ifs at found <;> cases found <;> first | rfl | exact isPlain_ofZone t.zone

theorem isPlain_spanPart? {s : Span} {name : String} (found : spanPart? s name = some v) :
    v.isPlain sets = true := by
  unfold spanPart? at found
  split_ifs at found <;> cases found <;> rfl

/-- The parts of a plain value are plain. -/
theorem isPlain_part? {name : String} (whole : a.isPlain sets = true)
    (found : a.part? name = some v) : v.isPlain sets = true := by
  unfold part? at found
  split at found
  case h_1 | h_2 => exact isPlain_integerPart? found
  case h_3 => split_ifs at found <;> cases found <;> rfl
  case h_4 => exact isPlain_datePart? found
  case h_5 =>
    rcases Option.or_eq_some_iff.mp found with part | ⟨-, part⟩
    · exact isPlain_datePart? part
    · exact isPlain_clockPart? part
  case h_6 => exact isPlain_clockPart? found
  case h_7 => exact isPlain_spanPart? found
  case h_8 => cases whole
  case h_9 => cases found

theorem isPlain_dateAnswer? {d : Date} {name : String} (found : dateAnswer? d name = some v) :
    v.isPlain sets = true := by
  unfold dateAnswer? at found
  split_ifs at found <;> cases found <;> rfl

theorem isPlain_zoneAnswer? {z : Option Zone} {name : String}
    (found : zoneAnswer? z name = some v) : v.isPlain sets = true := by
  unfold zoneAnswer? at found
  split_ifs at found <;> cases found <;> cases z <;> rfl

/-- What a value answers is plain. -/
theorem isPlain_answer? {name : String} (found : a.answer? name = some v) :
    v.isPlain sets = true := by
  unfold answer? at found
  split at found
  case h_1 => exact isPlain_dateAnswer? found
  case h_2 =>
    unfold momentAnswer? at found
    split_ifs at found
    all_goals try
      cases found
      rfl
    rcases Option.or_eq_some_iff.mp found with zoned | ⟨-, dated⟩
    · exact isPlain_zoneAnswer? zoned
    · exact isPlain_dateAnswer? dated
  case h_3 =>
    unfold clockAnswer? at found
    split_ifs at found
    case neg => exact isPlain_zoneAnswer? found
    all_goals
      cases found
      rfl
  case h_4 =>
    unfold spanAnswer? at found
    split_ifs at found
    cases found
    rfl
  case h_5 => cases found

/-! ## Going through a value -/

/-- A plain value yields plain items. -/
theorem allPlain_items? (whole : a.isPlain sets = true) (found : a.items? = some xs) :
    allPlain sets xs = true := by
  rw [allPlain_iff]
  intro x inside
  unfold items? at found
  split at found <;> cases found
  case h_1 | h_2 => exact allPlain_iff.mp whole x inside
  case h_3 => exact allPlain_iff.mp (Bool.and_eq_true_iff.mp whole).2 x inside
  case h_4 =>
    obtain ⟨e, entry, rfl⟩ := List.mem_map.mp inside
    exact (entriesPlain_iff.mp whole e entry).1
  all_goals
    obtain ⟨c, -, rfl⟩ := List.mem_map.mp inside
    rfl

end Value

end LiveDoc
