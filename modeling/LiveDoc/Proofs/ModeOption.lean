import LiveDoc.Proofs.BinaryValue
import LiveDoc.Proofs.Coercion

/-!
# The mode option

The mode option is accepted by equality: nothing, the truth values, and the numbers that are equal to
these. The mode is selected by what the option itself is, so a number is taken for nothing, and the mode
follows from the document. This is the mode that the option states unless the number is one for YAML text,
or zero for any other document.
-/

namespace LiveDoc

/-! ## Equality with truth values -/

namespace Binary64

variable {x y : Binary64} {n k : Int}

/-- A number equals an integer if it is finite and its value is that integer. -/
theorem eqvInt_iff : x.eqvInt n = true ↔ x.ratio?.isSome = true ∧ x.value = n := by
  unfold eqvInt
  cases ratio : x.ratio? with
  | none => simp
  | some r =>
    obtain ⟨positive, value⟩ := value_of_ratio ratio
    have nonzero : (r.2 : ℚ) ≠ 0 := Nat.cast_ne_zero.mpr positive.ne'
    simp only [beq_iff_eq, Option.isSome_some, true_and, value, div_eq_iff nonzero]
    exact_mod_cast Iff.rfl

/-- A number equals one integer at most. -/
theorem eq_of_eqvInt (first : x.eqvInt n = true) (second : x.eqvInt k = true) : n = k := by
  have value := (eqvInt_iff.mp first).2
  rw [(eqvInt_iff.mp second).2] at value
  exact_mod_cast value.symm

/-- Equal numbers equal the same integers. -/
theorem eqvInt_of_eqv (equal : x.eqv y = true) (number : x.eqvInt n = true) : y.eqvInt n = true := by
  rw [eqvInt_iff] at number ⊢
  cases x with
  | nan => cases equal
  | infinite s => cases number.1
  | finite s m e =>
    cases y with
    | nan => cases equal
    | infinite t => cases equal
    | finite t k f =>
      refine ⟨rfl, ?_⟩
      rw [← number.2]
      simp only [eqv, Bool.or_eq_true, Bool.and_eq_true, beq_iff_eq] at equal
      obtain ⟨rfl, rfl⟩ | ⟨⟨rfl, rfl⟩, rfl⟩ := equal
      · simp only [value_finite, Nat.cast_zero, mul_zero, zero_mul]
      · rfl

end Binary64

namespace Value

variable {v w : Value} {a b : Bool}

/-- Only nothing is equal to nothing. -/
theorem eq_null_of_eqv (equal : v.eqv .null = true) : v = .null := by
  cases v with
  | null => rfl
  | _ => cases equal

theorem eq_null_of_null_eqv (equal : Value.null.eqv w = true) : w = .null := by
  cases w with
  | null => rfl
  | _ => cases equal

/-- The integer that a truth value is equal to. -/
def bit (b : Bool) : Int := if b then 1 else 0

theorem bit_injective {a b : Bool} (same : bit a = bit b) : a = b := by
  revert a b
  decide

/-- A value is equal to one truth value at most. -/
theorem eq_of_eqv_bool (first : v.eqv (.bool a) = true) (second : v.eqv (.bool b) = true) : a = b := by
  cases v with
  | bool c => exact (beq_iff_eq.mp first).symm.trans (beq_iff_eq.mp second)
  | int n => exact bit_injective ((beq_iff_eq.mp first).trans (beq_iff_eq.mp second).symm)
  | float x => exact bit_injective (Binary64.eq_of_eqvInt first second)
  | _ => cases first

/-- Equal values are equal to the same truth values. -/
theorem eqv_bool_of_eqv (equal : v.eqv w = true) (truth : v.eqv (.bool b) = true) :
    w.eqv (.bool b) = true := by
  cases v with
  | bool a =>
    obtain rfl : a = b := beq_iff_eq.mp truth
    cases w with
    | bool c => exact beq_iff_eq.mpr (beq_iff_eq.mp equal).symm
    | int | float => exact equal
    | _ => cases equal
  | int n =>
    obtain rfl : bit b = n := beq_iff_eq.mp truth
    cases w with
    | bool c => exact beq_iff_eq.mpr (bit_injective (beq_iff_eq.mp equal))
    | int m => exact beq_iff_eq.mpr (beq_iff_eq.mp equal)
    | float y => exact equal
    | _ => cases equal
  | float x =>
    cases w with
    | bool c => exact beq_iff_eq.mpr (bit_injective (Binary64.eq_of_eqvInt equal truth))
    | int m => exact beq_iff_eq.mpr (Binary64.eq_of_eqvInt truth equal)
    | float y => exact Binary64.eqvInt_of_eqv equal truth
    | _ => cases equal
  | _ => cases truth

end Value

/-! ## Configurations that are made -/

namespace Config

variable {c d : Config}

/-- The configurations that come about: made from named options, or coerced from nothing, from a mapping
or from another one, with options put over it. -/
inductive Made : Config → Prop where
  | named {options : Options} {c : Config} : ofNamed options = .ok c → Made c
  | unstated {overrides : Options} {c : Config} : coerce .null overrides = .ok c → Made c
  | mapping {es : Entries} {overrides : Options} {c : Config} :
      coerce (.mapping es) overrides = .ok c → Made c
  | again {overrides : Options} {c d : Config} :
      Made c → coerce c.toValue overrides = .ok d → Made d

/-- However a configuration came about, it has gone through the checks of options. -/
theorem Made.exists_options (made : Made c) : ∃ options, ofOptions options = .ok c := by
  induction made with
  | named made => exact ⟨_, ofOptions_of_ofNamed made⟩
  | unstated made => exact (coerce_cases made).resolve_right nofun
  | mapping made => exact (coerce_cases made).resolve_right nofun
  | again _ made ih =>
    obtain ⟨options, before⟩ := ih
    rw [coerce_toValue before] at made
    exact ⟨_, ofOptions_of_ofNamed made⟩

/-- Its mode option is nothing or equal to a truth value. -/
theorem Made.mode (made : Made c) :
    c.stringifyFirst = .null ∨ ∃ b, c.stringifyFirst.eqv (.bool b) = true := by
  obtain ⟨options, made⟩ := made.exists_options
  have accepted := (madeFrom_of_ofOptions made).accepted
  simp only [modeValues, List.any_cons, List.any_nil, Bool.or_false, Bool.or_eq_true] at accepted
  rcases accepted with nothing | yes | no
  · exact .inl (Value.eq_null_of_eqv nothing)
  · exact .inr ⟨true, yes⟩
  · exact .inr ⟨false, no⟩

/-- Every such option is accepted, under either format. -/
theorem exists_made_iff (v : Value) (f : Format) :
    (∃ c, Made c ∧ c.stringifyFirst = v ∧ c.format = f) ↔
      v = .null ∨ ∃ b, v.eqv (.bool b) = true := by
  constructor
  · rintro ⟨c, made, rfl, -⟩
    exact made.mode
  · intro truth
    have accepted : modeValues.any v.eqv = true := by
      rcases truth with rfl | ⟨b, equal⟩
      · rfl
      · refine List.any_eq_true.mpr ⟨.bool b, ?_, equal⟩
        cases b <;> simp [modeValues]
    have named : ofNamed [("stringify_first", v), ("fmt", .text f.name)] =
        (do
          if !modeValues.any v.eqv then .error .modeForm
          else
            let format ← formatOf (.text f.name)
            .ok ⟨[], dollarTag, .bool false, .bool true, v, format, warningDiagnostic⟩) := rfl
    rw [accepted, formatOf_name] at named
    exact ⟨_, .named named, rfl, rfl⟩

end Config

/-! ## The stated mode -/

namespace Mode

variable {document : Value} {c d : Config}

/-- Whether a document is text in the YAML format of a configuration. -/
def isYamlText (document : Value) (c : Config) : Bool := document.isText && c.format == .yaml

/-- The mode that a truth value names. -/
def ofBool : Bool → Mode
  | true => .driverFed
  | false => .selfDriven

/-- The mode that a configuration states for a document, its mode option taken by equality. -/
def stated (document : Value) (c : Config) : Mode :=
  if c.stringifyFirst.eqv (.bool true) then .driverFed
  else if c.stringifyFirst.eqv (.bool false) then .selfDriven
  else ofBool !isYamlText document c

/-- Whether the stated mode is missed: the mode option is equal to a truth value without being one, and
that says whether the document is YAML text. It is a number then, one for YAML text or zero for another
document. -/
def Missed (document : Value) (c : Config) : Prop :=
  (∀ b, c.stringifyFirst ≠ .bool b) ∧ c.stringifyFirst.eqv (.bool (isYamlText document c)) = true

theorem ofBool_inj {a b : Bool} : ofBool a = ofBool b ↔ a = b := by
  revert a b
  decide

/-- What is equal to a truth value states the mode that this one names. -/
theorem stated_of_eqv {b : Bool} (equal : c.stringifyFirst.eqv (.bool b) = true) :
    stated document c = ofBool b := by
  unfold stated
  cases b with
  | true => rw [if_pos equal, ofBool]
  | false =>
    have other : ¬ c.stringifyFirst.eqv (.bool true) = true :=
      fun yes => absurd (Value.eq_of_eqv_bool equal yes) Bool.false_ne_true
    rw [if_neg other, if_pos equal, ofBool]

/-- Without a truth value as mode option the mode follows from the document. -/
theorem select_of_document (other : ∀ b, c.stringifyFirst ≠ .bool b) :
    select document c = ofBool !isYamlText document c := by
  unfold select isYamlText
  split
  · exact absurd ‹_› (other true)
  · exact absurd ‹_› (other false)
  · cases document.isText && c.format == .yaml <;> rfl

/-- A mode option that is no truth value selects another mode than it states if it is missed. -/
theorem select_eq_stated_of_number {b : Bool} (other : ∀ b, c.stringifyFirst ≠ .bool b)
    (equal : c.stringifyFirst.eqv (.bool b) = true) :
    select document c = stated document c ↔ ¬ Missed document c := by
  have missed : Missed document c ↔ b = isYamlText document c :=
    ⟨fun missed => Value.eq_of_eqv_bool equal missed.2, fun same => ⟨other, same ▸ equal⟩⟩
  rw [select_of_document other, stated_of_eqv equal, ofBool_inj, missed, Bool.not_eq_eq_eq_not,
    Bool.eq_not, eq_comm]

/-- The selected mode is the stated one unless that is missed. -/
theorem select_eq_stated (made : c.Made) :
    select document c = stated document c ↔ ¬ Missed document c := by
  rcases made.mode with nothing | ⟨b, equal⟩
  · have stays : ¬ Missed document c := fun missed => by
      have equal := missed.2
      rw [nothing] at equal
      cases equal
    refine iff_of_true ?_ stays
    rw [select_of_document fun b => by rw [nothing]; exact nofun, stated, nothing]
    rfl
  · by_cases truth : ∃ a, c.stringifyFirst = .bool a
    · obtain ⟨a, truth⟩ := truth
      have stays : ¬ Missed document c := fun missed => missed.1 a truth
      refine iff_of_true ?_ stays
      have own : c.stringifyFirst.eqv (.bool a) = true := by rw [truth]; exact beq_self_eq_true a
      rw [stated_of_eqv own, select, truth]
      cases a <;> rfl
    · exact select_eq_stated_of_number (not_exists.mp truth) equal

/-- Equal mode options state the same mode. -/
theorem stated_congr (made : c.Made) (equal : c.stringifyFirst.eqv d.stringifyFirst = true)
    (format : c.format = d.format) : stated document c = stated document d := by
  rcases made.mode with nothing | ⟨b, truth⟩
  · have other : d.stringifyFirst = .null := by
      rw [nothing] at equal
      exact Value.eq_null_of_null_eqv equal
    simp only [stated, isYamlText, nothing, other, format]
  · rw [stated_of_eqv truth, stated_of_eqv (Value.eqv_bool_of_eqv equal truth)]

/-- There are two modes only: of two of them that are one mode unless they miss it, those that miss it are
alike as well. -/
theorem eq_iff_of_missed {a b m : Mode} {p q : Prop} (first : a = m ↔ ¬ p) (second : b = m ↔ ¬ q) :
    a = b ↔ (p ↔ q) := by
  revert first second
  cases a <;> cases b <;> cases m <;> simp <;> tauto

/-- The mode option of a configuration that came about is nothing or equal to a truth value. The selected
mode is the one that it states, unless the option is a number that is one for YAML text or zero for
another document. Equal mode options under one format therefore select the same mode exactly if both or
neither miss theirs. -/
theorem select_eq_stated_iff (made : c.Made) :
    (c.stringifyFirst = .null ∨ ∃ b, c.stringifyFirst.eqv (.bool b) = true) ∧
      (∀ document, select document c = stated document c ↔ ¬ Missed document c) ∧
      ∀ d : Config, d.Made → c.format = d.format → c.stringifyFirst.eqv d.stringifyFirst = true →
        ∀ document, select document c = select document d ↔
          (Missed document c ↔ Missed document d) := by
  refine ⟨made.mode, fun document => select_eq_stated made, fun d other format equal document => ?_⟩
  have first : select document c = stated document c ↔ ¬ Missed document c := select_eq_stated made
  have second : select document d = stated document d ↔ ¬ Missed document d := select_eq_stated other
  rw [← stated_congr made equal format] at second
  exact eq_iff_of_missed first second

/-- Under a mode option of one, a value takes the mode that the option states, and YAML text does not. -/
theorem one_selects_by_document :
    ∃ c, Config.ofNamed [("stringify_first", .int 1), ("fmt", .text "YAML")] = .ok c ∧ c.Made ∧
      select (.list []) c = stated (.list []) c ∧ select (.text "1") c ≠ stated (.text "1") c := by
  have given : Config.ofNamed [("stringify_first", .int 1), ("fmt", .text "YAML")] = .ok _ := rfl
  have made := Config.Made.named given
  obtain ⟨-, selects, -⟩ := select_eq_stated_iff made
  refine ⟨_, rfl, made, (selects _).mpr fun missed => ?_,
    fun same => (selects _).mp same ⟨nofun, rfl⟩⟩
  exact absurd missed.2 (by decide)

/-- A mode option of zero is equal to the one that lets the engine drive, and yet the reader drives. -/
theorem zero_isNotFalse :
    ∃ c, Config.coerce (.mapping [(.text "stringify_first", .int 0)]) [] = .ok c ∧
      c.stringifyFirst.eqv (.bool false) = true ∧ select (.list [.int 1]) c ≠ .selfDriven :=
  ⟨_, rfl, rfl, by decide⟩

end Mode

end LiveDoc
