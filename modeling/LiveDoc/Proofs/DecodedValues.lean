import LiveDoc.Document
import LiveDoc.Proofs.JsonText
import LiveDoc.Proofs.PlainValues

/-!
# Decoded values

What a text is decoded to holds no functions, and a text of JSON holds no sets either. The decoders build
values from those of the parts; keys that occur again change values only.
-/

namespace LiveDoc

open Value

namespace Entries

variable {sets : Bool} {es : Entries} {k v : Value}

/-- Plain entries stay so when a plain one is put among them. -/
theorem entriesPlain_insert (key : k.isPlain sets = true) (value : v.isPlain sets = true)
    (all : entriesPlain sets es = true) : entriesPlain sets (insert k v es) = true := by
  induction es with
  | nil => exact entriesPlain_cons.mpr ⟨⟨key, value⟩, rfl⟩
  | cons e es ih =>
    obtain ⟨own, others⟩ := entriesPlain_cons.mp all
    unfold insert
    split
    · exact entriesPlain_cons.mpr ⟨⟨own.1, value⟩, others⟩
    · exact entriesPlain_cons.mpr ⟨own, ih others⟩

/-- Entries built from plain pairs are plain. -/
theorem entriesPlain_ofPairs {pairs : List (Value × Value)}
    (all : entriesPlain sets pairs = true) : entriesPlain sets (ofPairs pairs) = true := by
  have step (before : Entries) (held : entriesPlain sets before = true) :
      entriesPlain sets (pairs.foldl (fun es p => insert p.1 p.2 es) before) = true := by
    induction pairs generalizing before with
    | nil => exact held
    | cons p pairs ih =>
      obtain ⟨own, others⟩ := entriesPlain_cons.mp all
      exact ih others _ (entriesPlain_insert own.1 own.2 held)
  exact step [] rfl

end Entries

namespace Json.Tree

variable {sets : Bool}

mutual

/-- The value of a tree is plain. -/
theorem isPlain_toValue : ∀ t : Tree, t.toValue.isPlain sets = true
  | .null | .bool _ | .int _ | .float _ | .text _ => rfl
  | .array ts => allPlain_toValues ts
  | .object ms => Entries.entriesPlain_ofPairs (entriesPlain_toPairs ms)

theorem allPlain_toValues : ∀ ts : List Tree, allPlain sets (toValues ts) = true
  | [] => rfl
  | t :: ts => Bool.and_eq_true_iff.mpr ⟨isPlain_toValue t, allPlain_toValues ts⟩

theorem entriesPlain_toPairs :
    ∀ ms : List (String × Tree), entriesPlain sets (toPairs ms) = true
  | [] => rfl
  | (_, t) :: ms =>
    Bool.and_eq_true_iff.mpr ⟨isPlain_toValue t, entriesPlain_toPairs ms⟩

end

end Json.Tree

/-! ## Nodes -/

namespace Yaml.Build

variable {sets : Bool} {v : Value}

/-- A fault of the values does not make a value of its own. -/
theorem ofFault_ok {α : Type} {r : Except LiveDoc.Fault α} {a : α} (found : ofFault r = .ok a) :
    r = .ok a := by
  cases r <;> cases found
  rfl

theorem isPlain_bool {s : String} (found : bool s = .ok v) : v.isPlain sets = true := by
  simp only [bool] at found
  split_ifs at found <;> cases found <;> rfl

theorem isPlain_int {s : String} (found : int s = .ok v) : v.isPlain sets = true := by
  obtain ⟨sign, -, rest⟩ := Json.bind_ok found
  obtain ⟨n, -, same⟩ := Json.bind_ok rest
  cases same
  rfl

theorem isPlain_float {s : String} (found : float s = .ok v) : v.isPlain sets = true := by
  obtain ⟨⟨negative, digits⟩, -, rest⟩ := Json.bind_ok found
  dsimp only at rest
  by_cases infinite : digits = ".inf"
  · rw [if_pos infinite] at rest
    cases rest
    rfl
  rw [if_neg infinite] at rest
  by_cases nan : digits = ".nan"
  · rw [if_pos nan] at rest
    cases rest
    rfl
  rw [if_neg nan] at rest
  by_cases colons : digits.toList.contains ':' = true
  · rw [if_pos colons] at rest
    obtain ⟨parts, -, summed⟩ := Json.bind_ok rest
    obtain ⟨x, -, same⟩ := Json.bind_ok summed
    cases same
    rfl
  · rw [if_neg colons] at rest
    obtain ⟨x, -, same⟩ := Json.bind_ok rest
    cases same
    rfl

theorem isPlain_binary {m : Mark} {s : String} (found : binary m s = .ok v) :
    v.isPlain sets = true := by
  unfold binary at found
  split_ifs at found
  split at found <;> cases found
  rfl

/-- A timestamp stands for a date or a moment. -/
theorem isPlain_stamp {t : Timestamp} (found : t.value = .ok v) : v.isPlain sets = true := by
  unfold Timestamp.value at found
  split at found
  · obtain ⟨d, -, same⟩ := Json.bind_ok found
    cases same
    rfl
  · split at found
    · obtain ⟨z, -, rest⟩ := Json.bind_ok found
      obtain ⟨d, -, rest⟩ := Json.bind_ok rest
      obtain ⟨c, -, same⟩ := Json.bind_ok rest
      cases same
      rfl
    · obtain ⟨o, -, rest⟩ := Json.bind_ok found
      obtain ⟨z, -, rest⟩ := Json.bind_ok rest
      obtain ⟨d, -, rest⟩ := Json.bind_ok rest
      obtain ⟨c, -, same⟩ := Json.bind_ok rest
      cases same
      rfl

theorem isPlain_timestamp {s : String} (found : timestamp s = .ok v) : v.isPlain sets = true := by
  unfold timestamp at found
  split at found
  · cases found
  · split at found <;> cases found
    exact isPlain_stamp ‹_›

/-- The value of a node whose tag asks for no collection is plain. -/
theorem isPlain_leaf {n : Node} (found : leaf n = .ok v) : v.isPlain sets = true := by
  simp only [leaf] at found
  split_ifs at found <;> obtain ⟨s, -, rest⟩ := Json.bind_ok found
  · cases rest
    rfl
  · exact isPlain_bool (ofFault_ok rest)
  · exact isPlain_int (ofFault_ok rest)
  · exact isPlain_float (ofFault_ok rest)
  · exact isPlain_binary rest
  · split at rest
    · exact isPlain_timestamp (ofFault_ok rest)
    · cases rest
  · cases rest
    rfl

theorem entriesPlain_insert {es : Entries} {k : Value} (key : k.isPlain sets = true)
    (value : v.isPlain sets = true) (all : entriesPlain sets es = true) :
    entriesPlain sets (insert k v es) = true := by
  induction es with
  | nil => exact entriesPlain_cons.mpr ⟨⟨key, value⟩, rfl⟩
  | cons e es ih =>
    obtain ⟨own, others⟩ := entriesPlain_cons.mp all
    unfold insert
    split
    · exact entriesPlain_cons.mpr ⟨⟨own.1, value⟩, others⟩
    · exact entriesPlain_cons.mpr ⟨own, ih others⟩

variable {f : Node → Except Halt Value}
  (nodes : ∀ n w, f n = .ok w → w.isPlain sets = true)
include nodes

/-- Entries whose parts are plain are added to plain ones. -/
theorem entriesPlain_addEntries {ns : List (Node × Node)} {before after : Entries}
    (held : entriesPlain sets before = true) (found : addEntries f ns before = .ok after) :
    entriesPlain sets after = true := by
  induction ns generalizing before with
  | nil =>
    cases found
    exact held
  | cons n ns ih =>
    obtain ⟨k, key, rest⟩ := Json.bind_ok found
    obtain ⟨w, value, added⟩ := Json.bind_ok rest
    exact ih (entriesPlain_insert (nodes _ _ key) (nodes _ _ value) held) added

theorem allPlain_mapM {ns : List Node} {vs : List Value} (found : ns.mapM f = .ok vs) :
    allPlain sets vs = true := by
  induction ns generalizing vs with
  | nil =>
    cases found
    rfl
  | cons n ns ih =>
    rw [List.mapM_cons] at found
    obtain ⟨w, first, rest⟩ := Json.bind_ok found
    obtain ⟨ws, later, same⟩ := Json.bind_ok rest
    cases same
    exact Bool.and_eq_true_iff.mpr ⟨nodes _ _ first, ih later⟩

theorem allPlain_tuples {context : Context} {m : Mark} {ns : List Node} {vs : List Value}
    (found : tuples f context m ns = .ok vs) : allPlain sets vs = true := by
  induction ns generalizing vs with
  | nil =>
    cases found
    rfl
  | cons n ns ih =>
    obtain ⟨pair, -, rest⟩ := Json.bind_ok found
    obtain ⟨k, key, rest⟩ := Json.bind_ok rest
    obtain ⟨w, value, rest⟩ := Json.bind_ok rest
    obtain ⟨ws, later, same⟩ := Json.bind_ok rest
    cases same
    simp [allPlain, isPlain, nodes _ _ key, nodes _ _ value, ih later]

omit nodes

/-- The value of a node is plain, though it may hold sets. -/
theorem isPlain_value (fuel : Nat) (n : Node) (found : Build.value fuel n = .ok v) :
    v.isPlain true = true := by
  induction fuel generalizing n v with
  | zero => cases found
  | succ fuel ih =>
    have nodes (n : Node) (w : Value) (found : Build.value fuel n = .ok w) := ih n found
    unfold Build.value at found
    split at found
    · exact isPlain_leaf found
    all_goals
      obtain ⟨parts, -, rest⟩ := Json.bind_ok found
      obtain ⟨ws, built, same⟩ := Json.bind_ok rest
      cases same
    · exact allPlain_mapM nodes built
    · exact entriesPlain_addEntries nodes rfl built
    · have all := entriesPlain_iff.mp (entriesPlain_addEntries nodes rfl built)
      refine allPlain_iff.mpr fun x inside => ?_
      obtain ⟨e, entry, rfl⟩ := List.mem_map.mp inside
      exact (all e entry).1
    · exact allPlain_tuples nodes built
    · exact allPlain_tuples nodes built

end Yaml.Build

/-- What a text is decoded to is plain, though it may hold sets. -/
theorem Document.isPlain_decode {format : Format} {s : String} {v : Value}
    (decoded : decode format s = .ok v) : v.isPlain true = true := by
  cases format with
  | json =>
    cases whole : Json.read s.toList with
    | error stop => simp [decode, Json.decode, whole] at decoded
    | ok t =>
      obtain rfl : t.toValue = v := by simpa [decode, Json.decode, whole] using decoded
      exact Json.Tree.isPlain_toValue t
  | yaml =>
    cases whole : Yaml.read s.toList with
    | error halt => cases halt <;> simp [decode, Yaml.decode, whole] at decoded
    | ok w =>
      obtain rfl : w = v := by simpa [decode, Yaml.decode, whole] using decoded
      obtain ⟨n?, -, rest⟩ := Json.bind_ok whole
      cases n? with
      | none =>
        cases rest
        rfl
      | some n =>
        obtain ⟨level, -, rest⟩ := Json.bind_ok rest
        obtain ⟨-, -, built⟩ := Json.bind_ok rest
        exact Yaml.Build.isPlain_value _ n built

end LiveDoc
