import LiveDoc.Proofs.Display
import LiveDoc.Proofs.Formats

/-!
# Which values have a JSON text

A value has a JSON text exactly if all leaves that are reached through its lists, tuples and mappings
have one and all keys of those mappings are scalars. The strict rule has texts for scalars only, the
lenient one for calendar values and callables as well, but not as keys. A callable is shown by its name,
which may be any value, so one whose name shows an integer of too many digits has no text. Where both
rules write a value they write the same text. Nothing but an encode failure comes of what has none.
-/

namespace LiveDoc

/-! ## Leaves and keys -/

namespace Value

mutual

/-- What a value holds in its lists, tuples and mappings that is none of these itself. The keys of
mappings are not among it. -/
def leaves : Value → List Value
  | .list xs => leavesOfAll xs
  | .tuple xs => leavesOfAll xs
  | .mapping es => leavesOfEntries es
  | v => [v]

/-- The leaves of the items of a list. -/
def leavesOfAll : List Value → List Value
  | [] => []
  | x :: xs => x.leaves ++ leavesOfAll xs

/-- The leaves of the values of entries. -/
def leavesOfEntries : List (Value × Value) → List Value
  | [] => []
  | (_, v) :: es => v.leaves ++ leavesOfEntries es

end

mutual

/-- The keys of all mappings that are reached through lists, tuples and mappings. -/
def keys : Value → List Value
  | .list xs => keysOfAll xs
  | .tuple xs => keysOfAll xs
  | .mapping es => keysOfEntries es
  | _ => []

/-- The keys in the items of a list. -/
def keysOfAll : List Value → List Value
  | [] => []
  | x :: xs => x.keys ++ keysOfAll xs

/-- The keys of entries and those in their values. -/
def keysOfEntries : List (Value × Value) → List Value
  | [] => []
  | (k, v) :: es => k :: (v.keys ++ keysOfEntries es)

end

/-- Whether a value is a scalar of JSON. -/
def isScalar : Value → Bool
  | .null | .bool _ | .int _ | .float _ | .text _ => true
  | _ => false

/-- Whether a value is a date, a moment or a time of day. -/
def isCalendar : Value → Bool
  | .date _ | .moment _ | .clock _ => true
  | _ => false

/-- Whether no integer among the leaves and the keys has too many digits. -/
def HasFewDigits (v : Value) : Prop :=
  ∀ x ∈ v.leaves ++ v.keys, x.isScalar = true → x.showsOversized = false

/-- Whether a value is a callable whose name shows an integer of too many digits. -/
def hasLongName (v : Value) : Bool := v.isCallable && v.showsOversized

/-- A scalar is no callable. -/
theorem hasLongName_of_isScalar {v : Value} (scalar : v.isScalar = true) :
    v.hasLongName = false := by
  cases v <;> first | rfl | contradiction

end Value

/-! ## What is written -/

namespace Json

/-- The kinds of leaves for which a rule has texts. -/
def Rigor.admits : Rigor → Value → Bool
  | .strict, leaf => leaf.isScalar
  | .lenient, leaf => leaf.isScalar || leaf.isCalendar || leaf.isCallable

variable {layout : Layout} {rigor : Rigor}

/-- A step succeeds together with what follows it, if that depends on no result of the step. -/
theorem exists_bind_iff {α β ε : Type} {r : Except ε α} {f : α → Except ε β} {p : Prop}
    (next : ∀ a, (∃ b, f a = .ok b) ↔ p) : (∃ b, (r >>= f) = .ok b) ↔ (∃ a, r = .ok a) ∧ p := by
  cases r with
  | error stop => simp [bind, Except.bind]
  | ok a => simpa [bind, Except.bind] using next a

/-- A step succeeds if what is made of its result always does. -/
theorem exists_map_iff {α β ε : Type} {r : Except ε α} {g : α → β} :
    (∃ b, (r >>= fun a => .ok (g a)) = .ok b) ↔ ∃ a, r = .ok a := by
  have always : ∀ a, (∃ b, (.ok (g a) : Except ε β) = .ok b) ↔ True := fun a => by simp
  simpa using exists_bind_iff always

/-- An integer is written unless it has too many digits. -/
theorem exists_int_iff (n : Int) : (∃ s, Writer.int n = .ok s) ↔ Value.isOversized n = false := by
  unfold Writer.int
  cases Value.isOversized n <;> simp

/-- A key is written if it is a scalar that shows no integer of too many digits. -/
theorem exists_key_iff (k : Value) :
    (∃ s, Writer.key layout k = .ok s) ↔ k.isScalar = true ∧ k.showsOversized = false := by
  cases k with
  | int n => simpa [Writer.key, Value.isScalar, Value.showsOversized] using exists_int_iff n
  | _ => simp [Writer.key, Value.isScalar, Value.showsOversized]

/-- What is no scalar is shown if it is of a kind that the rule admits and shows no integer of too many
digits. -/
theorem exists_other_iff {v : Value} (beyond : v.isScalar = false) :
    (∃ s, Writer.other rigor v = .ok s) ↔ rigor.admits v = true ∧ v.showsOversized = false := by
  cases rigor with
  | strict => simp [Writer.other, Rigor.admits, beyond]
  | lenient =>
    by_cases calendar : v.isCalendar = true
    · cases v <;> first | contradiction | simp [Writer.other, Rigor.admits, Value.isCalendar,
        Value.showsOversized]
    · have shown : Writer.other .lenient v =
          if !v.isCallable then .error (.jsonValue v.typeName)
          else if v.showsOversized then .error .oversized
          else .ok (Writer.string ("<deferred " ++ v.deferredName ++ ">")) := by
        cases v <;> first | rfl | exact absurd rfl calendar
      rw [shown]
      cases callable : v.isCallable <;> cases v.showsOversized <;>
        simp [Rigor.admits, beyond, calendar, callable]

/-- Whether a rule has a text for a leaf. -/
def Rigor.Writes (rigor : Rigor) (leaf : Value) : Prop :=
  rigor.admits leaf = true ∧ leaf.showsOversized = false

/-- A value that is its own only leaf. -/
theorem exists_leaf_iff {level : Nat} {v : Value} (alone : v.leaves = [v]) (bare : v.keys = [])
    (written : (∃ s, Writer.value layout rigor level v = .ok s) ↔ rigor.Writes v) :
    (∃ s, Writer.value layout rigor level v = .ok s) ↔
      (∀ leaf ∈ v.leaves, rigor.Writes leaf) ∧
        ∀ key ∈ v.keys, key.isScalar = true ∧ key.showsOversized = false := by
  rw [written, alone, bare]
  simp only [List.forall_mem_singleton, List.not_mem_nil, false_imp_iff, implies_true, and_true]

/-- A scalar that is no integer is written. -/
theorem writes_scalar {v : Value} {r : Except EncodeCause String} {s : String} (written : r = .ok s)
    (scalar : v.isScalar = true) (small : v.showsOversized = false) :
    (∃ s, r = .ok s) ↔ rigor.Writes v := by
  refine iff_of_true ⟨s, written⟩ ⟨?_, small⟩
  cases rigor <;> simp only [Rigor.admits, scalar, Bool.true_or]

mutual

/-- A value is written exactly if all of its leaves are and all of its keys can be. -/
theorem exists_value_iff : ∀ (level : Nat) (v : Value),
    (∃ s, Writer.value layout rigor level v = .ok s) ↔
      (∀ leaf ∈ v.leaves, rigor.Writes leaf) ∧
        ∀ key ∈ v.keys, key.isScalar = true ∧ key.showsOversized = false
  | level, .list xs => exists_map_iff.trans (exists_values_iff (level + 1) xs)
  | level, .tuple xs => exists_map_iff.trans (exists_values_iff (level + 1) xs)
  | level, .mapping es => exists_map_iff.trans (exists_entries_iff (level + 1) es)
  | _, .null | _, .bool _ | _, .float _ | _, .text _ =>
    exists_leaf_iff rfl rfl (writes_scalar rfl rfl rfl)
  | _, .int n => by
    refine exists_leaf_iff rfl rfl ((exists_int_iff n).trans ?_)
    cases rigor <;> exact (and_iff_right rfl).symm
  | _, .bytes _ | _, .buffer _ | _, .set _ | _, .date _ | _, .moment _ | _, .clock _ | _, .span _
  | _, .zone _ | _, .routine _ _ | _, .deferred _ _ | _, .record _ _ =>
    exists_leaf_iff rfl rfl (exists_other_iff rfl)

/-- The same for the items of a list. -/
theorem exists_values_iff : ∀ (level : Nat) (xs : List Value),
    (∃ ss, Writer.values layout rigor level xs = .ok ss) ↔
      (∀ leaf ∈ Value.leavesOfAll xs, rigor.Writes leaf) ∧
        ∀ key ∈ Value.keysOfAll xs, key.isScalar = true ∧ key.showsOversized = false
  | _, [] => by simp [Writer.values, Value.leavesOfAll, Value.keysOfAll]
  | level, x :: xs => by
    have own := exists_value_iff level x
    have others := exists_values_iff level xs
    rw [Writer.values, exists_bind_iff fun _ => exists_map_iff.trans others, own, Value.leavesOfAll,
      Value.keysOfAll, List.forall_mem_append, List.forall_mem_append]
    tauto

/-- The same for the entries of a mapping. -/
theorem exists_entries_iff : ∀ (level : Nat) (es : List (Value × Value)),
    (∃ ss, Writer.entries layout rigor level es = .ok ss) ↔
      (∀ leaf ∈ Value.leavesOfEntries es, rigor.Writes leaf) ∧
        ∀ key ∈ Value.keysOfEntries es, key.isScalar = true ∧ key.showsOversized = false
  | _, [] => by simp [Writer.entries, Value.leavesOfEntries, Value.keysOfEntries]
  | level, (k, v) :: es => by
    have named : (∃ s, Writer.key layout k = .ok s) ↔ _ := exists_key_iff k
    have own := exists_value_iff level v
    have others := exists_entries_iff level es
    rw [Writer.entries,
      exists_bind_iff fun _ => exists_bind_iff fun _ => exists_map_iff.trans others, named, own,
      Value.leavesOfEntries, Value.keysOfEntries, List.forall_mem_append, List.forall_mem_cons,
      List.forall_mem_append]
    tauto

end

/-- Of what a rule admits, scalars with few digits aside, only callables can show an integer of too many
digits. -/
theorem writes_iff {leaf : Value} (few : leaf.isScalar = true → leaf.showsOversized = false) :
    rigor.Writes leaf ↔ rigor.admits leaf = true ∧ leaf.hasLongName = false := by
  unfold Rigor.Writes Value.hasLongName
  refine and_congr_right fun admitted => ?_
  cases callable : leaf.isCallable with
  | true => simp
  | false =>
    refine iff_of_true ?_ rfl
    cases scalar : leaf.isScalar with
    | true => exact few scalar
    | false =>
      have calendar : leaf.isCalendar = true := by
        cases rigor with
        | strict => simp [Rigor.admits, scalar] at admitted
        | lenient => simpa [Rigor.admits, scalar, callable] using admitted
      cases leaf with
      | date | moment | clock => rfl
      | _ => cases calendar

/-- A value with few digits is written exactly if all of its leaves are of a kind that the rule admits,
all of its keys are scalars, and no callable among the leaves has a name that is too long. -/
theorem exists_write_iff {v : Value} (few : v.HasFewDigits) :
    (∃ s, write layout rigor v = .ok s) ↔
      (∀ leaf ∈ v.leaves, rigor.admits leaf = true ∧ leaf.hasLongName = false) ∧
        ∀ key ∈ v.keys, key.isScalar = true := by
  rw [write, exists_value_iff]
  refine and_congr (forall₂_congr fun leaf inside => ?_) (forall₂_congr fun key inside => ?_)
  · exact writes_iff (few leaf (List.mem_append_left _ inside))
  · exact and_iff_left_of_imp (few key (List.mem_append_right _ inside))

end Json

namespace Document

variable {v : Value}

/-- Serializing in the JSON format returns the text that is written or else fails to encode. -/
theorem serialize_json_eq (v : Value) (pretty strict : Bool) :
    serialize v (.text Format.json.name) pretty strict =
      (Json.write (layoutOf pretty) (rigorOf strict) v).mapError .encode := by
  rw [serialize_named, write]
  cases Json.write (layoutOf pretty) (rigorOf strict) v <;> rfl

/-- So one of both happens. -/
theorem serialize_json_cases (v : Value) (pretty strict : Bool) :
    (∃ s, Json.write (layoutOf pretty) (rigorOf strict) v = .ok s ∧
        serialize v (.text Format.json.name) pretty strict = .ok s) ∨
      (¬ ∃ s, Json.write (layoutOf pretty) (rigorOf strict) v = .ok s) ∧
        ∃ cause, serialize v (.text Format.json.name) pretty strict = .error (.encode cause) := by
  rw [serialize_json_eq]
  cases Json.write (layoutOf pretty) (rigorOf strict) v with
  | ok s => exact .inl ⟨s, rfl, rfl⟩
  | error cause => exact .inr ⟨nofun, cause, rfl⟩

/-- A value is refused for a leaf of a kind that the rule does not admit, for a callable whose name is too
long, or for a key that is no scalar. -/
theorem exists_refusal_iff (few : v.HasFewDigits) (pretty strict : Bool) :
    (∃ cause, serialize v (.text Format.json.name) pretty strict = .error (.encode cause)) ↔
      (∃ leaf ∈ v.leaves, (rigorOf strict).admits leaf = false ∨ leaf.hasLongName = true) ∨
        ∃ key ∈ v.keys, key.isScalar = false := by
  have written : (∃ s, Json.write (layoutOf pretty) (rigorOf strict) v = .ok s) ↔ _ :=
    Json.exists_write_iff few
  have refused : (∃ cause, serialize v (.text Format.json.name) pretty strict =
      .error (.encode cause)) ↔
        ¬ ∃ s, Json.write (layoutOf pretty) (rigorOf strict) v = .ok s := by
    rcases serialize_json_cases v pretty strict with ⟨s, text, serialized⟩ | ⟨none, refused⟩
    · simp [text, serialized]
    · exact iff_of_true refused none
  rw [refused, written]
  simp only [not_and_or, not_forall, Bool.not_eq_true, Bool.not_eq_false, exists_prop]

/-- Under the strict rule a callable is refused whatever its name is. -/
theorem exists_strict_refusal_iff (few : v.HasFewDigits) (pretty : Bool) :
    (∃ cause, serialize v (.text Format.json.name) pretty true = .error (.encode cause)) ↔
      (∃ leaf ∈ v.leaves, leaf.isScalar = false) ∨ ∃ key ∈ v.keys, key.isScalar = false := by
  refine (exists_refusal_iff few pretty true).trans (or_congr_left (exists_congr fun leaf =>
    and_congr_right fun _ => or_iff_left_of_imp fun long => ?_))
  by_contra scalar
  rw [Value.hasLongName_of_isScalar (Bool.of_not_eq_false scalar)] at long
  contradiction

/-- Let no integer among the leaves and the keys of a value have too many digits. Serializing it as strict
JSON is refused exactly if some leaf that is reached through its lists, tuples and mappings, or some key
of these mappings, is neither nothing nor a truth value, a number or a text. For display, calendar values
and callables are accepted as well, but not as keys, and not a callable whose name shows an integer of
too many digits. A refusal is an encode failure, and what is not refused has a text. The text of a value
that is strict JSON is the same in both forms. -/
theorem serialize_json_refused_iff (few : v.HasFewDigits) (pretty : Bool) :
    ((∃ cause, serialize v (.text Format.json.name) pretty true = .error (.encode cause)) ↔
        (∃ leaf ∈ v.leaves, leaf.isScalar = false) ∨ ∃ key ∈ v.keys, key.isScalar = false) ∧
      ((∃ cause, serialize v (.text Format.json.name) pretty false = .error (.encode cause)) ↔
        (∃ leaf ∈ v.leaves,
            (leaf.isScalar = false ∧ leaf.isCalendar = false ∧ leaf.isCallable = false) ∨
              leaf.hasLongName = true) ∨
          ∃ key ∈ v.keys, key.isScalar = false) ∧
      (∀ strict, (∃ s, serialize v (.text Format.json.name) pretty strict = .ok s) ∨
        ∃ cause, serialize v (.text Format.json.name) pretty strict = .error (.encode cause)) ∧
      ∀ s, serialize v (.text Format.json.name) pretty true = .ok s →
        serialize v (.text Format.json.name) pretty false = .ok s := by
  have leniently := exists_refusal_iff few pretty false
  refine ⟨exists_strict_refusal_iff few pretty, ?_, fun strict => ?_, fun s serialized => ?_⟩
  · simpa only [rigorOf, Bool.false_eq_true, if_false, Json.Rigor.admits, Bool.or_eq_false_iff,
      and_assoc] using leniently
  · exact (serialize_json_cases v pretty strict).imp (fun ⟨s, _, text⟩ => ⟨s, text⟩) And.right
  · rcases serialize_json_cases v pretty true with ⟨t, written, same⟩ | ⟨-, cause, refused⟩
    · obtain rfl : t = s := Except.ok.inj (same.symm.trans serialized)
      have shown : Json.write (layoutOf pretty) (rigorOf false) v = .ok t :=
        Json.Writer.value_lenient written
      rw [serialize_json_eq, shown]
      rfl
    · rw [refused] at serialized
      contradiction

/-- A deferred result whose name is an integer of 4301 digits. -/
def longNamed : Value := .deferred Config.dollarTag (.int (Nat.pow 10 Value.maxDigits))

/-- It is no integer itself, and a callable without any keys, but there is no text to show it by. -/
theorem longNamed_isRefused :
    longNamed.HasFewDigits ∧ (∀ leaf ∈ longNamed.leaves, leaf.isCallable = true) ∧
      longNamed.keys = [] ∧
      ∃ cause, serialize longNamed (.text Format.json.name) true false = .error (.encode cause) := by
  have leaves : longNamed.leaves = [longNamed] := rfl
  have keys : longNamed.keys = [] := rfl
  have few : longNamed.HasFewDigits := by
    simp [Value.HasFewDigits, leaves, keys, show longNamed.isScalar = false from rfl]
  have long : longNamed.hasLongName = true := by decide +kernel
  have refused := (exists_refusal_iff few true false).mpr
    (.inl ⟨longNamed, leaves ▸ List.mem_singleton.mpr rfl, .inr long⟩)
  exact ⟨few, fun leaf inside => List.mem_singleton.mp (leaves ▸ inside) ▸ rfl, keys, refused⟩

/-- A date in a tuple, under a key that is a number, and a function in a list. -/
def dated : Value :=
  .mapping [(.int 7, .tuple [.date default, .float .nan]), (.null, .list [Config.dollarTag])]

/-- A mapping with a date as key within a list. -/
def datedKey : Value := .list [.mapping [(.date default, .text "")]]

/-- The first one is refused as strict JSON and shown for display, the second one is refused for display
as well. -/
theorem dated_isShown :
    dated.HasFewDigits ∧ datedKey.HasFewDigits ∧
      (∃ cause, serialize dated (.text Format.json.name) true true = .error (.encode cause)) ∧
      (∃ s, serialize dated (.text Format.json.name) true false = .ok s) ∧
      ∃ cause, serialize datedKey (.text Format.json.name) true false = .error (.encode cause) := by
  have few : dated.HasFewDigits := by unfold Value.HasFewDigits; decide +kernel
  have fewToo : datedKey.HasFewDigits := by unfold Value.HasFewDigits; decide +kernel
  obtain ⟨strictly, leniently, total, -⟩ := serialize_json_refused_iff few true
  have other := (serialize_json_refused_iff fewToo true).2.1
  have beyond : ∃ leaf ∈ dated.leaves, leaf.isScalar = false := by decide +kernel
  have shown : ¬ ((∃ leaf ∈ dated.leaves,
      (leaf.isScalar = false ∧ leaf.isCalendar = false ∧ leaf.isCallable = false) ∨
        leaf.hasLongName = true) ∨ ∃ key ∈ dated.keys, key.isScalar = false) := by decide +kernel
  have keyed : ∃ key ∈ datedKey.keys, key.isScalar = false := by decide +kernel
  refine ⟨few, fewToo, strictly.mpr (.inl beyond), ?_, other.mpr (.inr keyed)⟩
  exact (total false).resolve_right fun refused => shown (leniently.mp refused)

end Document

end LiveDoc
