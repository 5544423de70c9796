import LiveDoc.Proofs.YamlPlain
import LiveDoc.Proofs.YamlScalars

/-!
# The lines of written scalars

A text is written in the style that is chosen for it, and its lines spell it, or what a reader makes of
it where guards of spaces slip. A key that needs no mark is written on one line.
-/

namespace LiveDoc.Yaml

open Style (Plain Single Double reread isWide guardsHold)

variable {t s : String} {cs : List Char} {inKey split : Bool} {style : Style}

/-! ## Chosen styles -/

namespace Style

/-- A text is written plain if it has the tag as a plain text and may be written so. -/
theorem choose_plain (plain : choose t s inKey = .plain) :
    Schema.tagOf s = t ∧ allowsPlain s.toList = true := by
  unfold choose at plain
  dsimp only at plain
  split at plain
  · split at plain <;> contradiction
  · split at plain
    · rename_i allows
      simp only [Bool.and_eq_true, decide_eq_true_eq] at allows
      exact ⟨allows.1.1, allows.2⟩
    · split at plain <;> contradiction

theorem choose_single (single : choose t s inKey = .single) : allowsSingle s.toList = true := by
  unfold choose at single
  dsimp only at single
  split at single
  · split at single <;> contradiction
  · split at single
    · contradiction
    · split at single
      · rename_i allows
        exact (Bool.and_eq_true_iff.mp allows).1
      · contradiction

/-- Only bytes are written as whole lines. -/
theorem choose_literal (literal : choose t s inKey = .literal) : t = Schema.tag "binary" := by
  unfold choose at literal
  dsimp only at literal
  split at literal
  · assumption
  · split at literal
    · contradiction
    · split at literal <;> contradiction

/-- A key on one line has the style that it would have as a value. -/
theorem choose_inKey (present : s ≠ "") (unbroken : isMultiline s.toList = false)
    (other : t ≠ Schema.tag "binary") : choose t s true = choose t s false := by
  have some : s.toList.isEmpty = false := by
    cases text : s.toList with
    | nil => exact absurd (String.toList_eq_nil_iff.mp text) present
    | cons => rfl
  simp only [choose, if_neg other, some, unbroken, Bool.or_self, Bool.and_false, Bool.not_false]

/-- No guard slips on one line. -/
theorem guardsHold_narrow (cs : List Char) : guardsHold false cs = true := by
  induction cs with
  | nil => rfl
  | cons c cs ih => rw [guardsHold, ih]; rfl

/-- What a reader makes of a text that is written in a style. -/
def seen (style : Style) (wide : Bool) (cs : List Char) : List Char :=
  if style = .double then reread wide cs else cs

theorem singleLines_after (split : Bool) (margin column : Nat) (after : Bool)
    (broken : cs.head? = some '\n') :
    singleLines split margin column after cs = singleLines split margin column false cs := by
  cases cs with
  | nil => rfl
  | cons c cs =>
    obtain rfl := Option.some.inj broken
    rw [singleLines, singleLines]
    rfl

theorem separate_of_allowsSingle (allows : allowsSingle cs = true) :
    (∀ x ∈ cs, isSpecial x = false) ∧ Separate cs := by
  simp only [allowsSingle, Bool.not_eq_true', Bool.or_eq_false_iff] at allows
  obtain ⟨⟨common, before⟩, behind⟩ := allows
  exact ⟨fun x inside => by simpa using List.any_eq_false.mp common x inside, before, behind⟩

/-- Lines in a style spell what a reader makes of the text. -/
theorem written_lines (n : Nat) (split : Bool) (column margin : Nat)
    (plain : style = .plain → cs ≠ [] ∧ allowsPlain cs = true)
    (single : style = .single → allowsSingle cs = true) (quoted : style ≠ .literal)
    (reaches : isWide split margin = true → margin ≤ column + 1) :
    Written n (style.seen (isWide split margin) cs) (style == .plain)
      ((style.lines split column margin cs).joined n) := by
  cases style with
  | plain =>
    obtain ⟨some, allows⟩ := plain rfl
    obtain ⟨x, cs, rfl⟩ := List.exists_cons_of_ne_nil some
    have bare := Scalar.bare_of_allowsPlain allows
    refine .plain bare (plain_lines n split margin column true _ fun inside => ?_)
    exact absurd (bare.printable _ inside).1 (by decide)
  | single =>
    obtain ⟨common, separate⟩ := separate_of_allowsSingle (single rfl)
    have lines : lines .single split column margin cs =
        ((singleLines split margin (column + 1) true cs).close ['\'']).lead ['\''] := rfl
    rw [lines, Lines.joined_lead]
    by_cases broken : cs.head? = some '\n'
    · rw [singleLines_after _ _ _ _ broken]
      exact .single common (single_lines n split margin (column + 1) false cs separate nofun)
    · exact .single common
        (single_lines n split margin (column + 1) true cs separate fun _ => broken)
  | double =>
    have lines : lines .double split column margin cs =
        ((doubleLines split margin false (column + 1) [] cs).close ['"']).lead ['"'] := rfl
    rw [lines, Lines.joined_lead]
    exact .double (double_lines n split margin (column + 1) cs reaches)
  | literal => exact absurd rfl quoted

/-! ## Texts on one line -/

theorem plainLines_flat (margin column : Nat) (after : Bool) (cs : List Char) :
    plainLines false margin column after cs = ⟨cs, []⟩ := by
  induction cs generalizing column after with
  | nil => rfl
  | cons c cs ih =>
    rw [plainLines, if_neg (by simp [foldsAt]), ih]
    rfl

theorem singleLines_flat (margin column : Nat) (after : Bool) (unbroken : '\n' ∉ cs) :
    singleLines false margin column after cs =
      ⟨cs.flatMap fun c => if c = '\'' then ['\'', '\''] else [c], []⟩ := by
  induction cs generalizing column after with
  | nil => rfl
  | cons c cs ih =>
    rw [List.mem_cons, not_or] at unbroken
    rw [singleLines, if_neg (Ne.symm unbroken.1), if_neg (by simp [foldsAt]), List.flatMap_cons]
    split
    · rw [ih _ _ unbroken.2]
      rfl
    · rw [ih _ _ unbroken.2]
      rfl

theorem doubleLines_flat (margin column : Nat) (inner : Bool) (pending cs : List Char) :
    doubleLines false margin inner column pending cs =
      ⟨pending.reverse ++ cs.flatMap fun c => (escape? c).getD [c], []⟩ := by
  induction cs generalizing column inner pending with
  | nil => simp [doubleLines]
  | cons c cs ih =>
    cases escaped : escape? c with
    | none =>
      rw [doubleLines_plain escaped, if_neg (by simp), ih]
      simp [escaped]
    | some e =>
      rw [doubleLines_escape escaped, if_neg (by simp), ih]
      simp [Lines.lead, escaped]

/-- A text without breaks stays on one line where it is not split. -/
theorem lines_flat (column margin : Nat) (unbroken : '\n' ∉ cs) (quoted : style ≠ .literal) :
    (style.lines false column margin cs).rest = [] ∧
      '\n' ∉ (style.lines false column margin cs).first := by
  cases style with
  | plain =>
    rw [lines, plainLines_flat]
    exact ⟨rfl, unbroken⟩
  | single =>
    rw [lines, singleLines_flat _ _ _ unbroken]
    refine ⟨rfl, fun inside => ?_⟩
    simp only [Lines.close, Lines.lead, List.getLast?_nil, List.cons_append, List.nil_append,
      List.mem_cons, List.mem_append, List.mem_flatMap, List.not_mem_nil, or_false] at inside
    rcases inside with quote | ⟨c, among, inside⟩ | quote
    · exact absurd quote (by decide)
    · split at inside
      · exact absurd inside (by decide)
      · rw [List.mem_singleton] at inside
        exact unbroken (inside ▸ among)
    · exact absurd quote (by decide)
  | double =>
    rw [lines, doubleLines_flat]
    refine ⟨rfl, fun inside => ?_⟩
    simp only [Lines.close, Lines.lead, List.getLast?_nil, List.cons_append, List.nil_append,
      List.reverse_nil, List.mem_cons, List.mem_append, List.mem_flatMap, List.not_mem_nil,
      or_false] at inside
    rcases inside with quote | ⟨c, among, inside⟩ | quote
    · exact absurd quote (by decide)
    · cases escaped : escape? c with
      | none =>
        rw [escaped, Option.getD_none, List.mem_singleton] at inside
        exact unbroken (inside ▸ among)
      | some e =>
        rw [escaped, Option.getD_some] at inside
        exact absurd (printable_escape escaped _ inside).1 (by decide)
    · exact absurd quote (by decide)
  | literal => exact absurd rfl quoted

end Style

/-! ## Scalars without tags -/

/-- Whether a scalar shows its type: it is a string, or its text has the type when it is plain. -/
def IsShown (t s : String) : Prop :=
  t = Schema.tag "str" ∨ s ≠ "" ∧ Style.choose t s false = .plain

theorem str_ne_binary : Schema.tag "str" ≠ Schema.tag "binary" := fun same =>
  absurd (Build.tag_inj.mp same) (by decide)

/-- A string with a special character is written between double quotes. -/
theorem Style.choose_of_special (special : Style.allowsSingle s.toList = false) :
    Style.choose (Schema.tag "str") s inKey = .double := by
  have unplain : Style.allowsPlain s.toList = false := by
    rw [Style.allowsPlain, special]
    rfl
  simp only [Style.choose, if_neg str_ne_binary, special, unplain, Bool.and_false, Bool.false_and,
    Bool.false_eq_true, if_false]

/-- A string that is written plain has characters. -/
theorem present_of_plain (shown : IsShown t s) (plain : Style.choose t s false = .plain) :
    s ≠ "" := by
  rcases shown with rfl | ⟨some, -⟩
  · rintro rfl
    exact absurd (Build.tag_inj.mp (Style.choose_plain plain).1) (by decide)
  · exact some

theorem quoted_of_shown (shown : IsShown t s) : Style.choose t s false ≠ .literal := by
  rcases shown with rfl | ⟨-, plain⟩
  · exact fun literal => str_ne_binary (Style.choose_literal literal)
  · rw [plain]
    nofun

theorem scalar_untagged {column margin : Nat} {style : Style} (chosen : Style.choose t s inKey = style)
    (shown : if style = .plain then Schema.tagOf s = t else t = Schema.tag "str") :
    Writer.scalar inKey column margin t s = style.lines (!inKey) column margin s.toList := by
  rw [Writer.scalar, chosen, if_pos shown]
  rfl

/-- A string needs no tag in any style. -/
theorem scalar_str (inKey : Bool) (column margin : Nat) (s : String) :
    Writer.scalar inKey column margin (Schema.tag "str") s =
      (Style.choose (Schema.tag "str") s inKey).lines (!inKey) column margin s.toList := by
  refine scalar_untagged rfl ?_
  split
  · rename_i plain
    exact (Style.choose_plain plain).1
  · rfl

/-- A scalar that shows its type needs no tag. -/
theorem scalar_shown (column margin : Nat) (shown : IsShown t s) :
    Writer.scalar false column margin t s =
      (Style.choose t s false).lines true column margin s.toList := by
  rcases shown with rfl | ⟨-, plain⟩
  · exact scalar_str false column margin s
  · refine scalar_untagged rfl ?_
    rw [if_pos plain]
    exact (Style.choose_plain plain).1

/-- What a reader makes of a scalar at a margin. -/
def seenText (margin : Nat) (t s : String) : List Char :=
  (Style.choose t s false).seen (isWide true margin) s.toList

/-- Whether a scalar is written plain. -/
def isPlain (t s : String) : Bool := Style.choose t s false == .plain

/-- The lines of a scalar spell what a reader makes of it. -/
theorem written_scalar (shown : IsShown t s) (n : Nat) {column margin : Nat}
    (reaches : isWide true margin = true → margin ≤ column + 1) :
    Written n (seenText margin t s) (isPlain t s)
      ((Writer.scalar false column margin t s).joined n) := by
  rw [scalar_shown column margin shown]
  refine Style.written_lines n true column margin (fun plain => ?_) Style.choose_single
    (quoted_of_shown shown) reaches
  exact ⟨fun empty => present_of_plain shown plain (String.toList_eq_nil_iff.mp empty),
    (Style.choose_plain plain).2⟩

/-- A key without a mark is written on one line, and spells its text. -/
theorem written_key {mark : Mark} (simple : Writer.isSimpleKey (.scalar (Schema.tag "str") s mark))
    (n column : Nat) :
    Written n s.toList (isPlain (Schema.tag "str") s)
        (Writer.keyLine column (.scalar (Schema.tag "str") s mark)) ∧
      '\n' ∉ Writer.keyLine column (.scalar (Schema.tag "str") s mark) := by
  simp only [Writer.isSimpleKey, Bool.and_eq_true, Bool.not_eq_true'] at simple
  obtain ⟨⟨-, present⟩, single⟩ := simple
  have present : s ≠ "" := by
    rintro rfl
    contradiction
  have unbroken : '\n' ∉ s.toList := fun inside =>
    List.any_eq_false.mp single _ inside rfl
  have shown : IsShown (Schema.tag "str") s := .inl rfl
  have quoted := quoted_of_shown shown
  have same := Style.choose_inKey present single str_ne_binary
  obtain ⟨flat, one⟩ := Style.lines_flat column column unbroken quoted
  have bare : Style.choose (Schema.tag "str") s false = .plain →
      s.toList ≠ [] ∧ Style.allowsPlain s.toList = true := fun plain =>
    ⟨fun empty => present (String.toList_eq_nil_iff.mp empty), (Style.choose_plain plain).2⟩
  have whole := Style.written_lines n false column column bare Style.choose_single quoted
    (by simp [isWide])
  have line : Writer.keyLine column (.scalar (Schema.tag "str") s mark) =
      ((Style.choose (Schema.tag "str") s false).lines false column column s.toList).first := by
    rw [Writer.keyLine, scalar_str, same]
    rfl
  have narrow : (Style.choose (Schema.tag "str") s false).seen (isWide false column) s.toList =
      s.toList := by
    unfold Style.seen
    split
    · exact (Style.reread_eq_self _ _).mpr (Style.guardsHold_narrow _)
    · rfl
  rw [Lines.joined, flat, List.flatMap_nil, List.append_nil, narrow] at whole
  rw [line]
  exact ⟨whole, one⟩

end LiveDoc.Yaml
