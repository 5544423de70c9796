import LiveDoc.Json.Tree
import LiveDoc.Value.Show

/-!
# JSON documents

A JSON document holds constants, numbers, texts, lists and mappings with distinct texts as keys. It
is the value of a tree, and a tree that repeats no key within an object loses nothing when it becomes
a value.
-/

namespace LiveDoc

namespace Entries

/-- A key that is not there yet goes to the end. -/
theorem insert_of_new {key value : Value} {es : Entries}
    (new : ∀ entry ∈ es, key.eqv entry.1 = false) : es.insert key value = es ++ [(key, value)] := by
  induction es with
  | nil => rfl
  | cons entry es ih =>
    have later := ih fun other inside => new other (List.mem_cons_of_mem _ inside)
    simp [insert, new entry List.mem_cons_self, later]

/-- Entries whose keys are all different from one another. -/
def Separate (es : Entries) : Prop := es.Pairwise fun a b => b.1.eqv a.1 = false

/-- Pairs with different keys are the entries that they build. -/
theorem ofPairs_of_separate {es : Entries} (separate : es.Separate) : ofPairs es = es := by
  suffices ∀ built : Entries, (built ++ es).Separate →
      es.foldl (fun es p => insert p.1 p.2 es) built = built ++ es from this [] separate
  intro built all
  induction es generalizing built with
  | nil => simp
  | cons entry es ih =>
    have new : ∀ other ∈ built, entry.1.eqv other.1 = false := fun other inside =>
      (List.pairwise_append.mp all).2.2 other inside entry List.mem_cons_self
    rw [List.foldl_cons, insert_of_new new, ih (List.Pairwise.of_cons separate)]
    · simp
    · simpa using all

/-- Whether entries are separate, only their keys tell. -/
theorem separate_of_keys {es fs : Entries} (separate : es.Separate)
    (same : fs.map (·.1) = es.map (·.1)) : fs.Separate := by
  have keys : (es.map (·.1)).Pairwise fun a b => b.eqv a = false :=
    List.pairwise_map.mpr separate
  rw [← same] at keys
  exact List.pairwise_map.mp keys

end Entries

namespace Value

mutual

/-- Whether a value is a JSON document. Its integers have no more digits than are converted to text,
and its binary64 numbers are in canonical form. -/
def IsJson : Value → Prop
  | .null => True
  | .bool _ => True
  | .int n => isOversized n = false
  | .float x => x.Canonical
  | .text _ => True
  | .list xs => AreJson xs
  | .mapping es => HoldJson es
  | _ => False

/-- Whether this holds of the items of a list. -/
def AreJson : List Value → Prop
  | [] => True
  | x :: xs => x.IsJson ∧ AreJson xs

/-- Whether this holds of the values of entries, whose keys are different texts. -/
def HoldJson : List (Value × Value) → Prop
  | [] => True
  | (k, v) :: es =>
    (∃ s, k = .text s) ∧ (∀ entry ∈ es, entry.1 ≠ k) ∧ v.IsJson ∧ HoldJson es

end

end Value

namespace Json.Tree

mutual

/-- Whether no object of a tree repeats a key. -/
def Distinct : Tree → Prop
  | .array ts => DistinctAll ts
  | .object ms => DistinctMembers ms
  | _ => True

/-- Whether this holds of every tree of a list. -/
def DistinctAll : List Tree → Prop
  | [] => True
  | t :: ts => t.Distinct ∧ DistinctAll ts

/-- Whether members have different keys, and this holds of all their trees. -/
def DistinctMembers : List (String × Tree) → Prop
  | [] => True
  | (k, t) :: ms => (∀ m ∈ ms, m.1 ≠ k) ∧ t.Distinct ∧ DistinctMembers ms

end

/-- The pairs of members keep their keys. -/
theorem toPairs_keys (ms : List (String × Tree)) :
    (toPairs ms).map (·.1) = ms.map fun m => Value.text m.1 := by
  induction ms with
  | nil => rfl
  | cons m ms ih => simp [toPairs, ih]

/-- Members with different keys make separate entries. -/
theorem toPairs_separate {ms : List (String × Tree)} (distinct : DistinctMembers ms) :
    Entries.Separate (toPairs ms) := by
  induction ms with
  | nil => exact List.Pairwise.nil
  | cons m ms ih =>
    obtain ⟨k, t⟩ := m
    obtain ⟨new, -, rest⟩ := distinct
    refine List.Pairwise.cons (fun entry inside => ?_) (ih rest)
    have key : entry.1 ∈ ms.map fun m => Value.text m.1 :=
      toPairs_keys ms ▸ List.mem_map_of_mem inside
    obtain ⟨m, member, same⟩ := List.mem_map.mp key
    simp [← same, Value.eqv, new m member]

/-- The value of an object without repeated keys has one entry for each member. -/
theorem toValue_object {ms : List (String × Tree)} (distinct : DistinctMembers ms) :
    (Tree.object ms).toValue = .mapping (toPairs ms) := by
  rw [toValue, Entries.ofPairs_of_separate (toPairs_separate distinct)]

end Json.Tree

end LiveDoc
