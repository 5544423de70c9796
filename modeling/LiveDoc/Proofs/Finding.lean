import LiveDoc.Library.Lookup

/-!
# What a lookup finds

A lookup in a mapping finds the value under a key, and one in a list the item at the integer that the
label converts to, counted from the end if it is negative. What is absent comes to nothing. Two kinds
of labels cannot be looked up at all: one that is no key of any mapping, in a mapping, and an infinite
number in a list or a tuple. Everything else comes to a value, whatever attributes values have.
-/

namespace LiveDoc

namespace Value

variable {v label : Value} {es : Entries} {xs : List Value} {attributes : Attributes}

/-! ## Labels that are indices -/

/-- Whether a label converts to an integer: a truth value counts as zero or one, a binary64 number is
cut off towards zero, and a text or bytes must write an integer. -/
inductive ConvertsTo : Value → Int → Prop where
  | bool (b : Bool) : ConvertsTo (.bool b) (if b then 1 else 0)
  | int (n : Int) : ConvertsTo (.int n) n
  | float {x : Binary64} {p : Int} {q : Nat} : x.ratio? = some (p, q) →
      ConvertsTo (.float x) (p.tdiv q)
  | text {s : String} {n : Int} : Numeral.integer 10 s = .ok n → ConvertsTo (.text s) n
  | bytes {data : List UInt8} {n : Int} : integerOfBytes? data = some n →
      ConvertsTo (.bytes data) n
  | buffer {data : List UInt8} {n : Int} : integerOfBytes? data = some n →
      ConvertsTo (.buffer data) n

theorem toOption_eq_some {α β : Type} {r : Except α β} {b : β} :
    r.toOption = some b ↔ r = .ok b := by
  cases r <;> simp [Except.toOption]

/-- The index of a label is the integer that the label converts to. -/
theorem index?_eq_some {i : Int} : label.index? = .ok (some i) ↔ label.ConvertsTo i := by
  constructor
  · intro found
    cases label with
    | bool b =>
      obtain rfl := Option.some.inj (Except.ok.inj found)
      exact .bool b
    | int n =>
      obtain rfl := Option.some.inj (Except.ok.inj found)
      exact .int n
    | float x =>
      cases x with
      | finite negative m e =>
        obtain rfl := Option.some.inj (Except.ok.inj found)
        exact .float rfl
      | _ => cases found
    | text s => exact .text (toOption_eq_some.mp (Except.ok.inj found))
    | bytes data => exact .bytes (Except.ok.inj found)
    | buffer data => exact .buffer (Except.ok.inj found)
    | _ => cases found
  · intro converts
    cases converts with
    | bool | int => rfl
    | @float x p q ratio =>
      cases x with
      | finite negative m e =>
        have cut : (Binary64.finite negative m e).truncate? = some (p.tdiv q) := by
          rw [Binary64.truncate?, ratio]
          rfl
        simp only [index?, cut]
      | _ => cases ratio
    | text written => exact congrArg Except.ok (toOption_eq_some.mpr written)
    | bytes written | buffer written => exact congrArg Except.ok written

/-- Only an infinite number has no index and is no label without one either. -/
theorem index?_error {f : Fault} :
    label.index? = .error f ↔
      f = .floatInfinityToInteger ∧ ∃ negative, label = .float (.infinite negative) := by
  cases label with
  | float x => cases x <;> simp [index?, Binary64.truncate?, Binary64.ratio?, eq_comm]
  | _ => simp [index?]

/-- Where an index counts from in a list. -/
def place (i : Int) (length : Nat) : Nat := (if i < 0 then i + length else i).toNat

/-- An index within the bounds of a list has an item. -/
theorem at?_inside {i : Int} (low : -(xs.length : Int) ≤ i) (high : i < xs.length) :
    at? xs i = xs[place i xs.length]? ∧ place i xs.length < xs.length := by
  have front : ¬ (if i < 0 then i + xs.length else i) < 0 := by split <;> omega
  refine ⟨by simp only [at?, front, if_false, place], ?_⟩
  unfold place
  split <;> omega

/-- An index beyond the bounds has none. -/
theorem at?_outside {i : Int} (out : i < -(xs.length : Int) ∨ (xs.length : Int) ≤ i) :
    at? xs i = none := by
  unfold at?
  by_cases negative : i < 0
  · have before : i + xs.length < 0 := by omega
    simp only [negative, before, if_true]
  · simp only [negative, if_false]
    exact List.getElem?_eq_none (by omega)

/-- What stands at an index is an item. -/
theorem mem_of_at? {i : Int} {x : Value} (found : at? xs i = some x) : x ∈ xs := by
  unfold at? at found
  dsimp only at found
  generalize (if i < 0 then i + (xs.length : Int) else i) = k at found
  split at found
  · contradiction
  · exact List.mem_of_getElem? found

/-! ## Labels that are keys -/

/-- A label that is no text equals none. -/
theorem eqv_text {s : String} (same : label.eqv (.text s) = true) : label = .text s := by
  cases label with
  | text t => exact congrArg Value.text (beq_iff_eq.mp same)
  | _ => cases same

/-- Under a text that is a key there is its value. -/
theorem get?_of_mem (texts : ∀ entry ∈ es, ∃ s, entry.1 = .text s)
    (distinct : (es.map Prod.fst).Nodup) {key x : Value} (inside : (key, x) ∈ es) :
    es.get? key = some x := by
  induction es with
  | nil => contradiction
  | cons entry es ih =>
    obtain ⟨fresh, distinct⟩ := List.nodup_cons.mp distinct
    obtain ⟨s, own⟩ := texts entry List.mem_cons_self
    rcases List.mem_cons.mp inside with rfl | later
    · obtain rfl : key = .text s := own
      simp [Entries.get?, eqv]
    · have other : key.eqv entry.1 = false := by
        rw [own]
        refine Bool.eq_false_iff.mpr fun same => fresh ?_
        rw [own, ← eqv_text same]
        exact List.mem_map_of_mem later
      rw [Entries.get?, List.find?_cons, other]
      exact ih (fun entry inside => texts entry (List.mem_cons_of_mem _ inside)) distinct later

/-- Under a label that is no key there is nothing. -/
theorem get?_of_not_mem (texts : ∀ entry ∈ es, ∃ s, entry.1 = .text s)
    (absent : label ∉ es.map Prod.fst) : es.get? label = none := by
  rw [Entries.get?, Option.map_eq_none_iff, List.find?_eq_none]
  intro entry inside same
  obtain ⟨s, own⟩ := texts entry inside
  rw [own] at same
  refine absent ?_
  rw [eqv_text same, ← own]
  exact List.mem_map_of_mem inside

/-- What stands under a key is the value of an entry. -/
theorem mem_of_get? {x : Value} (found : es.get? label = some x) : x ∈ es.map Prod.snd := by
  obtain ⟨entry, held, rfl⟩ := Option.map_eq_some_iff.mp found
  exact List.mem_map_of_mem (List.mem_of_find?_eq_some held)

/-! ## Lookups -/

/-- The fault of looking up a label: one that is no key in a mapping, and an infinite number in a list
or a tuple. -/
inductive Refuses : Value → Value → Fault → Prop where
  | key {es : Entries} {label : Value} {type : String} : label.unhashable? = some type →
      Refuses (.mapping es) label (.unhashable type)
  | item (xs : List Value) (negative : Bool) :
      Refuses (.list xs) (.float (.infinite negative)) .floatInfinityToInteger
  | part (xs : List Value) (negative : Bool) :
      Refuses (.tuple xs) (.float (.infinite negative)) .floatInfinityToInteger

theorem lookUp_mapping (hashable : label.unhashable? = none) :
    (Value.mapping es).lookUp label attributes = .ok ((es.get? label).getD .null) := by
  simp only [lookUp, lookupKey, hashable, bind, Except.bind]

theorem itemUnder_of_error {f : Fault} (refused : label.index? = .error f) :
    itemUnder xs label = .error f := by
  simp only [itemUnder, refused, bind, Except.bind]

theorem itemUnder_of_index {i : Int} (index : label.index? = .ok (some i)) :
    itemUnder xs label = .ok ((at? xs i).getD .null) := by
  simp only [itemUnder, index, bind, Except.bind]

theorem itemUnder_of_none (index : label.index? = .ok none) : itemUnder xs label = .ok .null := by
  simp only [itemUnder, index, bind, Except.bind]

/-- What is found among items is one of them or nothing. -/
theorem mem_of_itemUnder {x : Value} (found : itemUnder xs label = .ok x) : x = .null ∨ x ∈ xs := by
  cases index : label.index? with
  | error f =>
    rw [itemUnder_of_error index] at found
    contradiction
  | ok place? =>
    cases place? with
    | none =>
      rw [itemUnder_of_none index] at found
      exact .inl (Except.ok.inj found).symm
    | some i =>
      rw [itemUnder_of_index index] at found
      cases item : at? xs i with
      | none =>
        rw [item] at found
        exact .inl (Except.ok.inj found).symm
      | some y =>
        rw [item] at found
        exact .inr (Except.ok.inj found ▸ mem_of_at? item)

/-- A lookup among items fails for an infinite number only. -/
theorem itemUnder_error {f : Fault} :
    itemUnder xs label = .error f ↔
      f = .floatInfinityToInteger ∧ ∃ negative, label = .float (.infinite negative) := by
  rw [← index?_error]
  cases index : label.index? with
  | error g =>
    rw [itemUnder_of_error index]
    constructor <;> rintro ⟨⟩ <;> rfl
  | ok found => cases found <;> simp [itemUnder_of_none, itemUnder_of_index, index]

/-- A lookup fails for labels that cannot be looked up and for no others. -/
theorem lookUp_error {f : Fault} : v.lookUp label attributes = .error f ↔ v.Refuses label f := by
  cases v with
  | mapping es =>
    cases type : label.unhashable? with
    | none =>
      rw [lookUp_mapping type]
      refine iff_of_false (by simp) ?_
      rintro ⟨⟩
      simp_all
    | some t =>
      have refused : (Value.mapping es).lookUp label attributes = .error (.unhashable t) := by
        simp only [lookUp, lookupKey, type, bind, Except.bind]
      rw [refused]
      constructor
      · rintro ⟨⟩
        exact .key type
      · rintro (own | _)
        rw [Option.some.inj (type.symm.trans own)]
  | list xs =>
    change itemUnder xs label = .error f ↔ _
    rw [itemUnder_error]
    constructor
    · rintro ⟨rfl, negative, rfl⟩
      exact .item xs negative
    · rintro ⟨⟩
      exact ⟨rfl, _, rfl⟩
  | tuple xs =>
    change itemUnder xs label = .error f ↔ _
    rw [itemUnder_error]
    constructor
    · rintro ⟨rfl, negative, rfl⟩
      exact .part xs negative
    · rintro ⟨⟩
      exact ⟨rfl, _, rfl⟩
  | _ =>
    refine iff_of_false ?_ (by rintro ⟨⟩)
    cases label <;> simp [lookUp]

/-! ## What is found -/

/-- Values whose parts are looked up by keys or indices, and nothing itself. The keys of a mapping are
different texts. -/
inductive Keyed : Value → Prop where
  | null : Keyed .null
  | list (xs : List Value) : Keyed (.list xs)
  | mapping {es : Entries} : (∀ entry ∈ es, ∃ s, entry.1 = .text s) → (es.map Prod.fst).Nodup →
      Keyed (.mapping es)

/-- What stands under a label: the value of a key, the item at the integer that the label converts to,
and nothing where there is neither. -/
inductive Finds : Value → Value → Value → Prop where
  | null {label : Value} : Finds .null label .null
  | value {es : Entries} {label x : Value} : (label, x) ∈ es → Finds (.mapping es) label x
  | keyless {es : Entries} {label : Value} : label ∉ es.map Prod.fst → Finds (.mapping es) label .null
  | item {xs : List Value} {label x : Value} {i : Int} : label.ConvertsTo i →
      -(xs.length : Int) ≤ i → i < xs.length → xs[place i xs.length]? = some x →
      Finds (.list xs) label x
  | itemless {xs : List Value} {label : Value} :
      (∀ i : Int, label.ConvertsTo i → i < -(xs.length : Int) ∨ (xs.length : Int) ≤ i) →
      Finds (.list xs) label .null

/-- Under every label of a value with keys or indices stands something. -/
theorem exists_finds (keyed : v.Keyed) (label : Value) : ∃ x, v.Finds label x := by
  classical
  cases keyed with
  | null => exact ⟨_, .null⟩
  | list xs =>
    by_cases inside : ∃ i : Int, label.ConvertsTo i ∧ -(xs.length : Int) ≤ i ∧ i < xs.length
    · obtain ⟨i, converts, low, high⟩ := inside
      exact ⟨_, .item converts low high (List.getElem?_eq_getElem (at?_inside low high).2)⟩
    · refine ⟨_, .itemless fun i converts => ?_⟩
      have out : -(xs.length : Int) ≤ i → ¬ i < xs.length :=
        fun low high => inside ⟨i, converts, low, high⟩
      omega
  | @mapping es texts distinct =>
    by_cases inside : label ∈ es.map Prod.fst
    · obtain ⟨entry, held, rfl⟩ := List.mem_map.mp inside
      exact ⟨entry.2, .value held⟩
    · exact ⟨_, .keyless inside⟩

/-- A lookup that is not refused comes to what stands under the label. -/
theorem lookUp_of_finds (keyed : v.Keyed) {x : Value} (finds : v.Finds label x)
    (serves : ¬ ∃ f, v.Refuses label f) : v.lookUp label attributes = .ok x := by
  cases finds with
  | null => cases label <;> rfl
  | @value es label x inside =>
    cases type : label.unhashable? with
    | some t => exact absurd ⟨_, .key type⟩ serves
    | none =>
      cases keyed with
      | mapping texts distinct =>
        rw [lookUp_mapping type, get?_of_mem texts distinct inside]
        rfl
  | @keyless es label absent =>
    cases type : label.unhashable? with
    | some t => exact absurd ⟨_, .key type⟩ serves
    | none =>
      cases keyed with
      | mapping texts distinct =>
        rw [lookUp_mapping type, get?_of_not_mem texts absent]
        rfl
  | @item xs label x i converts low high found =>
    change itemUnder xs label = .ok x
    rw [itemUnder_of_index (index?_eq_some.mpr converts), (at?_inside low high).1, found]
    rfl
  | @itemless xs label out =>
    change itemUnder xs label = .ok .null
    cases index : label.index? with
    | error f =>
      obtain ⟨-, negative, rfl⟩ := index?_error.mp index
      exact absurd ⟨_, .item xs negative⟩ serves
    | ok found =>
      cases found with
      | none => exact itemUnder_of_none index
      | some i =>
        rw [itemUnder_of_index index, at?_outside (out i (index?_eq_some.mp index))]
        rfl

/-- A lookup comes to a value exactly if its label is not refused, whichever attributes values have. In a
mapping, in a list and in nothing, that is the value which stands under the label. -/
theorem lookUp_eq_ok_iff (v label : Value) (attributes : Attributes) :
    ((∃ x, v.lookUp label attributes = .ok x) ↔ ¬ ∃ f, v.Refuses label f) ∧
      (v.Keyed → ∀ x, v.lookUp label attributes = .ok x ↔ v.Finds label x ∧ ¬ ∃ f, v.Refuses label f) := by
  have total : (∃ x, v.lookUp label attributes = .ok x) ↔ ¬ ∃ f, v.Refuses label f := by
    cases looked : v.lookUp label attributes with
    | ok x =>
      refine iff_of_true ⟨x, rfl⟩ ?_
      rintro ⟨f, refused⟩
      rw [← lookUp_error, looked] at refused
      contradiction
    | error f =>
      refine iff_of_false ?_ (not_not_intro ⟨f, lookUp_error.mp looked⟩)
      rintro ⟨x, ⟨⟩⟩
  refine ⟨total, fun keyed x => ⟨fun looked => ?_, fun finds => lookUp_of_finds keyed finds.1 finds.2⟩⟩
  have serves := total.mp ⟨x, looked⟩
  obtain ⟨y, finds⟩ := exists_finds keyed label
  obtain rfl : x = y :=
    Except.ok.inj (looked.symm.trans (lookUp_of_finds keyed finds serves))
  exact ⟨finds, serves⟩

/-- The text of a negative number finds an item from the end of a list. -/
theorem lookUp_fromTheEnd :
    (Value.list [.int 1, .int 2]).Keyed ∧
      (Value.list [.int 1, .int 2]).lookUp (.text "-1") = .ok (.int 2) := by
  have keyed : (Value.list [.int 1, .int 2]).Keyed := .list _
  have written : Numeral.integer 10 "-1" = .ok (-1) := rfl
  refine ⟨keyed, (((lookUp_eq_ok_iff _ _ _).2 keyed _).mpr ⟨?_, ?_⟩)⟩
  · exact .item (.text written) (by decide) (by decide) rfl
  · rintro ⟨f, ⟨⟩⟩

/-- A list cannot be looked up in a mapping, nor an infinite number in a list. -/
theorem lookUp_isRefused :
    (Value.mapping []).lookUp (.list []) = .error (.unhashable "list") ∧
      (Value.list [.int 1]).lookUp (.float (.infinite false)) = .error .floatInfinityToInteger :=
  ⟨lookUp_error.mpr (.key rfl), lookUp_error.mpr (.item [.int 1] false)⟩

end Value

end LiveDoc
