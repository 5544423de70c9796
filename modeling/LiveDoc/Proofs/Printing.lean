import LiveDoc.Printer

/-!
# What can be printed

Only an integer of too many digits keeps a value from being printed, wherever in the value it would
have to be shown.
-/

namespace LiveDoc.Printer

open Value

/-- Whether a text is made unless an integer of too many digits would be shown. -/
def Prints {α : Type} (oversized : Bool) (result : Except Fault α) : Prop :=
  oversized = false ∧ (∃ a, result = .ok a) ∨
    oversized = true ∧ result = .error .oversizedInteger

variable {α β : Type} {oversized later : Bool} {result : Except Fault α}

/-- What only changes the text leaves it printed. -/
theorem Prints.map (prints : Prints oversized result) (f : α → β) :
    Prints oversized (result >>= fun a => .ok (f a)) := by
  rcases prints with ⟨few, a, rfl⟩ | ⟨many, rfl⟩
  · exact .inl ⟨few, f a, rfl⟩
  · exact .inr ⟨many, rfl⟩

/-- One text and then another one are made unless either would show such an integer. -/
theorem Prints.bind (prints : Prints oversized result) {next : α → Except Fault β}
    (rest : ∀ a, Prints later (next a)) : Prints (oversized || later) (result >>= next) := by
  rcases prints with ⟨few, a, rfl⟩ | ⟨many, rfl⟩
  · rw [few, Bool.false_or]
    exact rest a
  · exact .inr ⟨by rw [many, Bool.true_or], rfl⟩

theorem prints_key (v : Value) : Prints v.showsOversized (key v) := by
  unfold key
  cases shows : v.showsOversized with
  | false => exact .inl ⟨rfl, _, rfl⟩
  | true => exact .inr ⟨rfl, rfl⟩

theorem prints_leaf (v : Value) : Prints v.showsOversized (leaf v) := by
  unfold leaf
  cases shows : v.showsOversized with
  | false => exact .inl ⟨rfl, _, rfl⟩
  | true => exact .inr ⟨rfl, rfl⟩

mutual

/-- A value is printed unless it would show an integer of too many digits. -/
theorem prints_format (indent : String) : ∀ (level : Int) (v : Value),
    Prints v.showsOversized (format indent level v)
  | _, .list [] | _, .tuple [] | _, .mapping [] => .inl ⟨rfl, _, rfl⟩
  | level, .list (x :: xs) => (prints_formatAll indent (level + 1) (x :: xs)).map _
  | level, .tuple (x :: xs) => (prints_formatAll indent (level + 1) (x :: xs)).map _
  | level, .mapping (e :: es) => (prints_formatEntries indent (level + 1) (e :: es)).map _
  | _, .null => prints_leaf .null
  | _, .bool b => prints_leaf (.bool b)
  | _, .int n => prints_leaf (.int n)
  | _, .float x => prints_leaf (.float x)
  | _, .text s => prints_leaf (.text s)
  | _, .bytes d => prints_leaf (.bytes d)
  | _, .buffer d => prints_leaf (.buffer d)
  | _, .set xs => prints_leaf (.set xs)
  | _, .date d => prints_leaf (.date d)
  | _, .moment m => prints_leaf (.moment m)
  | _, .clock t => prints_leaf (.clock t)
  | _, .span s => prints_leaf (.span s)
  | _, .zone z => prints_leaf (.zone z)
  | _, .routine r captured => prints_leaf (.routine r captured)
  | _, .deferred fn label => prints_leaf (.deferred fn label)
  | _, .record kind fields => prints_leaf (.record kind fields)

theorem prints_formatAll (indent : String) : ∀ (level : Int) (xs : List Value),
    Prints (anyOversized xs) (formatAll indent level xs)
  | _, [] => .inl ⟨rfl, _, rfl⟩
  | level, x :: xs =>
    (prints_format indent level x).bind fun _ => (prints_formatAll indent level xs).map _

theorem prints_formatEntries (indent : String) : ∀ (level : Int) (es : List (Value × Value)),
    Prints (entriesOversized es) (formatEntries indent level es)
  | _, [] => .inl ⟨rfl, _, rfl⟩
  | level, (k, v) :: es => by
    rw [entriesOversized, Bool.or_assoc]
    exact (prints_key k).bind fun _ => (prints_format indent level v).bind fun _ =>
      (prints_formatEntries indent level es).map _

end

/-- So it is with two spaces for each level. -/
theorem prints_print (v : Value) : Prints v.showsOversized (print v) := prints_format "  " 0 v

end LiveDoc.Printer
