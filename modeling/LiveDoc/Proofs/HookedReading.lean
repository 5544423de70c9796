import LiveDoc.Library.Service
import LiveDoc.Proofs.ClosingBraces
import LiveDoc.Proofs.EngineFailures
import LiveDoc.Proofs.JsonReading
import LiveDoc.Proofs.Samples

/-!
# Reading with a hook

A reader with a hook hands over the objects of a text one after the other, each when the text closes
it. For a text that is no document these are the objects that close before the fault, and then the
reader tells the fault.

The failures of the hook are the failures of the reading, but for the end of an iteration: by that the
reader itself finds that a value is missing, and it takes the hook's for its own.

How strings are spelled as texts is open. So the keys of an object may be spelled apart that differ in
halves of surrogate pairs only, which are no characters, and then both are handed over.
-/

namespace LiveDoc.Service

open Json (Tree behindBraces Closes)
open Json.Grammar (WellFormed Convertible)

variable (call : Caller) {data : Value} {s : String} (hook : Value)

/-- Hands objects to a hook as the reader of a text does, with nothing in the place of a key. -/
def handOver (cs : List Char) (objects : List Json.Members) : Run (List Value) :=
  Json.throughReader cs (Tree.hookEach (fun mapping => call hook [.null, mapping]) objects [])

/-- The hook is called once for every brace that closes an object of the text, in the order of the
braces, with the mapping of the object, in which the results for the objects inside have taken their
places. The first failure of the hook is the failure of the reading, unless it is the end of an
iteration. If there is none, a document comes to its value, with all its objects replaced by their
results. In a text that is no document the hook is called for the objects that close before the fault,
and the reading fails with the place of the fault, unless what stands there is an integer with more
digits than are converted. -/
theorem loadsWith_eq_handOver (spell : Json.Spelling)
    (contents : Document.contents Document.defaultEncoding data = .ok s) :
    (WellFormed Convertible s.toList → ∃ t, Json.read s.toList spell = .ok t ∧
      Json.decode s spell = .ok (t.fill (t.objects.map fun ms => (Tree.object ms).toValue)) ∧
      List.Forall₂ (Closes spell s.toList) (behindBraces .outside s.toList) t.objects ∧
      loadsWith call data hook spell =
        (handOver call hook s.toList t.objects).andThen fun results => .done (t.fill results)) ∧
    (¬ WellFormed Convertible s.toList → ∃ stop, Json.read s.toList spell = .error stop ∧
      List.Forall₂ (Closes spell s.toList)
        ((behindBraces .outside s.toList).filter fun behind => stop.left ≤ behind.length)
        (Tree.objectsAll stop.closed) ∧
      loadsWith call data hook spell =
        (handOver call hook s.toList (Tree.objectsAll stop.closed)).andThen
          (fun _ => .fail (stop.failure s.toList)) ∧
      ((∀ digits, ¬ Json.HoldsOversized s.toList stop.left digits) →
        ∃ reason line column,
          Json.lineColumn s.toList (s.toList.length - stop.left) = (line, column) ∧
          stop.failure s.toList = .parse (.json reason line column))) ∧
    ∀ f : Failure, (∀ position type message, f ≠ .fault (.iterationEnd position type message)) →
      Json.hookFailure s.toList f = f := by
  have reading : loadsWith call data hook spell =
      Json.decodeWith (fun mapping => call hook [.null, mapping]) s spell := by
    rw [loadsWith, Document.readWith, contents, Run.ofExcept, Run.done_andThen]
  rw [reading, Json.decodeWith, Json.decode]
  refine ⟨fun formed => ?_, fun malformed => ?_, fun f proper => ?_⟩
  · obtain ⟨t, ended⟩ := Json.Grammar.exists_read formed spell
    rw [ended]
    refine ⟨t, rfl, by rw [Tree.fill_own], Json.closes_of_read ended, ?_⟩
    dsimp only
    rw [Tree.resolve_eq_hookEach _ t [], Json.throughReader_andThen_done, handOver]
  · obtain ⟨stop, ended⟩ : ∃ stop, Json.read s.toList spell = .error stop := by
      cases ended : Json.read s.toList spell with
      | ok t => exact absurd (Json.Grammar.wellFormed_of_read ended).1 malformed
      | error stop => exact ⟨stop, rfl⟩
    have halts := Json.halts_of_read ended
    rw [ended]
    refine ⟨stop, rfl, halts.closes, ?_, fun few => ?_⟩
    · dsimp only
      rw [Tree.resolveList_eq_hookEach _ stop.closed [], Json.throughReader_andThen_done,
        Run.andThen_assoc, handOver]
      simp only [Run.done_andThen]
    · cases reason : stop.reason with
      | ok cause =>
        refine ⟨cause, _, _, rfl, ?_⟩
        rw [Json.Stop.failure, reason]
        rfl
      | error digits => exact absurd (halts.oversized digits reason) (few digits)
  · unfold Json.hookFailure
    split
    · exact absurd rfl (proper _ _ _)
    · rfl

/-- A spelling in which different halves of surrogate pairs are different characters. -/
def spelledApart : Json.Spelling := fun ps =>
  String.ofList (ps.map fun p => match p with
    | .char c => c
    | .half n => Char.ofNat (n - 0xD800))

/-- An object has two keys if they are different halves. -/
example : (Json.decode "\x7b\"\\ud800\": 1, \"\\ud801\": 2\x7d" spelledApart).toOption.map
    (fun v => match v with
      | .mapping entries => entries.length
      | _ => 0) = some 2 := by decide +kernel

/-- A text that hides an object behind a repeated key. -/
def hidingText : String := "\x7b\"a\": \x7b\"b\": 1\x7d, \"a\": \"\x7d\"\x7d"

/-- Both objects of that text are handed over, in the order of their braces. -/
theorem hidingText_isHandedOver :
    Document.contents Document.defaultEncoding (.text hidingText) = .ok hidingText ∧
      WellFormed Convertible hidingText.toList ∧ ∃ t : Tree, t.objects.length = 2 ∧
        loadsWith Sample.call (.text hidingText) (CombinatorName.value .observe) =
          (handOver Sample.call (CombinatorName.value .observe) hidingText.toList t.objects).andThen
            fun results => .done (t.fill results) := by
  have formed : WellFormed Convertible hidingText.toList :=
    Json.Grammar.wellFormed_of_toBool (by decide +kernel)
  obtain ⟨t, -, -, closes, handed⟩ := (loadsWith_eq_handOver Sample.call
    (CombinatorName.value .observe) .plain
    (rfl : Document.contents _ (.text hidingText) = _)).1 formed
  have braces : (behindBraces .outside hidingText.toList).length = 2 := by decide +kernel
  exact ⟨rfl, formed, t, closes.length_eq.symm.trans braces, handed⟩

/-- An object, a space and a byte that no text has. -/
def strayByte : Value := .bytes [0x7B, 0x7D, 0x20, 0xFF]

/-- An object closes in front of that byte, but bytes are decoded before anything is read, so no hook is
called. And a hook that ends an iteration without a value makes the reader fail to count lines. -/
theorem strayByte_isNotHandedOver :
    behindBraces .outside "\x7b\x7d ".toList = [[' ']] ∧
      (∃ reason, ∀ (call : Caller) (hook : Value) (past : List Event),
        (loadsWith call strayByte hook).after past =
          ⟨[], [], .error (.parse (.bytes Document.defaultEncoding reason))⟩) ∧
      ∀ past, (loadsWith (fun _ _ => .fault (.iterationEnd none "NoneType" ""))
        (.text "\x7b\x7d") .null).after past =
          ⟨[], [], .error (.fault (.operands "-" "NoneType" "int"))⟩ :=
  ⟨by decide +kernel, ⟨_, fun _ _ _ => rfl⟩, fun _ => rfl⟩

end LiveDoc.Service
