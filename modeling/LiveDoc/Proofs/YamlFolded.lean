import LiveDoc.Yaml.Writer

/-!
# Texts and the lines they are written in

A text is written over several lines that are joined at a margin. What the lines spell is described
character by character: a space or a run of line breaks may stand between two lines, a quote is doubled,
a character is escaped. The description leaves out where the lines are folded, so that a reader need
not know the columns.
-/

namespace LiveDoc.Yaml

/-! ## Joined lines -/

/-- A line behind spaces, unless it is empty. -/
def margin (n : Nat) (line : List Char) : List Char :=
  if line.isEmpty then [] else List.replicate n ' ' ++ line

namespace Lines

/-- Lines in one text, those after the first at a margin. -/
def joined (n : Nat) (l : Lines) : List Char :=
  l.first ++ l.rest.flatMap fun line => '\n' :: margin n line

variable {n : Nat} {l : Lines} {cs w : List Char} {x : Char}

theorem joined_lead (n : Nat) (cs : List Char) (l : Lines) :
    (l.lead cs).joined n = cs ++ l.joined n := by
  simp [joined, lead]

theorem joined_below (cs : List Char) (present : l.first ≠ []) :
    (l.below cs).joined n = cs ++ '\n' :: (List.replicate n ' ' ++ l.joined n) := by
  simp [joined, below, margin, present]

theorem joined_below_empty (cs : List Char) (empty : l.first = []) :
    (l.below cs).joined n = cs ++ '\n' :: l.joined n := by
  simp [joined, below, margin, empty]

/-- Joined lines that start with a character of the first line show that there is one. -/
theorem first_ne_nil (starts : l.joined n = x :: w) (inner : x ≠ '\n') : l.first ≠ [] := by
  intro empty
  cases rest : l.rest with
  | nil => simp [joined, empty, rest] at starts
  | cons line lines =>
    rw [joined, empty, rest, List.nil_append, List.flatMap_cons, List.cons_append] at starts
    exact inner (List.cons.inj starts).1.symm

theorem close_lead (q cs : List Char) (l : Lines) : (l.lead cs).close q = (l.close q).lead cs := by
  unfold close lead
  cases l.rest.getLast? <;> simp

theorem close_below (q cs : List Char) (l : Lines) :
    (l.below cs).close q = (l.close q).below cs := by
  unfold close below
  cases rest : l.rest with
  | nil => rfl
  | cons line lines =>
    rw [List.getLast?_cons_cons]
    cases last : (line :: lines).getLast? with
    | none => exact absurd (List.getLast?_eq_none_iff.mp last) (List.cons_ne_nil line lines)
    | some end_ => rfl

theorem close_first (q : List Char) (several : l.rest ≠ []) : (l.close q).first = l.first := by
  unfold close
  cases last : l.rest.getLast? with
  | none => exact absurd (List.getLast?_eq_none_iff.mp last) several
  | some line => rfl

end Lines

namespace Style

open Lines

/-! ## Plain text -/

/-- What plain lines at a margin spell. A single space may stand for a fold; the flag tells whether a
space comes before. -/
inductive Plain (n : Nat) : Bool → List Char → List Char → Prop
  | nil {after : Bool} : Plain n after [] []
  | char {after : Bool} {c : Char} {cs w : List Char} : Plain n (c == ' ') cs w →
      Plain n after (c :: cs) (c :: w)
  | fold {x : Char} {cs w : List Char} : x ≠ ' ' → Plain n true (x :: cs) w →
      Plain n false (' ' :: x :: cs) ('\n' :: (List.replicate n ' ' ++ w))

variable {n : Nat} {cs w : List Char} {x : Char}

/-- A character other than a space stands for itself. -/
theorem Plain.head {after : Bool} (plain : Plain n after (x :: cs) w) (visible : x ≠ ' ') :
    ∃ w', w = x :: w' ∧ Plain n false cs w' := by
  cases plain with
  | char rest =>
    rw [beq_false_of_ne visible] at rest
    exact ⟨_, rfl, rest⟩
  | fold => exact absurd rfl visible

/-- Plain lines spell their text. -/
theorem plain_lines (n : Nat) (split : Bool) (margin column : Nat) (after : Bool) (cs : List Char)
    (unbroken : '\n' ∉ cs) :
    Plain n after cs ((plainLines split margin column after cs).joined n) := by
  induction cs generalizing column after with
  | nil => exact .nil
  | cons c cs ih =>
    have others : '\n' ∉ cs := fun inside => unbroken (List.mem_cons_of_mem c inside)
    rw [plainLines]
    split
    · rename_i folds
      simp only [foldsAt, Bool.and_eq_true, Bool.not_eq_true', beq_iff_eq, bne_iff_ne] at folds
      obtain ⟨⟨⟨⟨⟨-, rfl⟩, rfl⟩, some⟩, single⟩, -⟩ := folds
      obtain ⟨x, cs, rfl⟩ : ∃ x ds, cs = x :: ds := by
        cases cs with
        | nil => contradiction
        | cons x ds => exact ⟨x, ds, rfl⟩
      have visible : x ≠ ' ' := fun same => single (by rw [same]; rfl)
      have inner : x ≠ '\n' := fun same => others (same ▸ List.mem_cons_self)
      have next := ih margin true others
      obtain ⟨w, starts, -⟩ := next.head visible
      rw [joined_below [] (first_ne_nil starts inner)]
      exact .fold visible next
    · rw [joined_lead]
      exact .char (ih (column + 1) (c == ' ') others)

/-! ## Text between single quotes -/

/-- What lines between single quotes spell, up to the closing quote. A single space may stand for a
fold, and line breaks stand for one less than there are; the flag tells whether a space comes before.
-/
inductive Single (n : Nat) : Bool → List Char → List Char → Prop
  | nil {after : Bool} : Single n after [] ['\'']
  | quote {after : Bool} {cs w : List Char} : Single n false cs w →
      Single n after ('\'' :: cs) ('\'' :: '\'' :: w)
  | char {after : Bool} {c : Char} {cs w : List Char} : c ≠ '\n' → c ≠ '\'' →
      Single n (c == ' ') cs w → Single n after (c :: cs) (c :: w)
  | fold {x : Char} {cs w : List Char} : x ≠ ' ' → x ≠ '\n' → Single n true (x :: cs) w →
      Single n false (' ' :: x :: cs) ('\n' :: (List.replicate n ' ' ++ w))
  | last {cs w : List Char} : cs.head? ≠ some '\n' → cs.head? ≠ some ' ' → Single n false cs w →
      Single n false ('\n' :: cs) ('\n' :: '\n' :: (List.replicate n ' ' ++ w))
  | more {cs w : List Char} : Single n false ('\n' :: cs) w →
      Single n false ('\n' :: '\n' :: cs) ('\n' :: w)

/-- A text that starts with neither a space nor a break is spelled from its first character on, or
from a quote. -/
theorem Single.head {after : Bool} (single : Single n after cs w) (unbroken : cs.head? ≠ some '\n')
    (visible : cs.head? ≠ some ' ') :
    ∃ x w', w = x :: w' ∧ x ≠ '\n' ∧ x ≠ ' ' ∧ (x = '\'' ∨ x ∈ cs) := by
  cases single with
  | nil => exact ⟨_, _, rfl, by decide, by decide, .inl rfl⟩
  | quote => exact ⟨_, _, rfl, by decide, by decide, .inl rfl⟩
  | char inner =>
    exact ⟨_, _, rfl, inner, fun same => visible (by rw [same]; rfl), .inr List.mem_cons_self⟩
  | fold => exact absurd rfl visible
  | last => exact absurd rfl unbroken
  | more => exact absurd rfl unbroken

/-- A text that starts with a break is spelled from a break on. -/
theorem Single.exists_break {after : Bool} (single : Single n after ('\n' :: cs) w) :
    ∃ v, w = '\n' :: v := by
  cases single with
  | char inner => exact absurd rfl inner
  | last => exact ⟨_, rfl⟩
  | more => exact ⟨_, rfl⟩

/-- Whether no line break stands next to a space. -/
def Separate (cs : List Char) : Prop :=
  adjoin isLineEnd (· == ' ') cs = false ∧ adjoin (· == ' ') isLineEnd cs = false

theorem Separate.tail {c : Char} (separate : Separate (c :: cs)) : Separate cs := by
  cases cs with
  | nil => exact ⟨rfl, rfl⟩
  | cons d cs => exact ⟨(Bool.or_eq_false_iff.mp separate.1).2, (Bool.or_eq_false_iff.mp separate.2).2⟩

theorem Separate.behind_break (separate : Separate ('\n' :: cs)) : cs.head? ≠ some ' ' := by
  cases cs with
  | nil => nofun
  | cons d cs =>
    have apart := (Bool.or_eq_false_iff.mp separate.1).1
    rintro same
    rw [Option.some.inj same] at apart
    contradiction

theorem Separate.behind_space (separate : Separate (' ' :: cs)) : cs.head? ≠ some '\n' := by
  cases cs with
  | nil => nofun
  | cons d cs =>
    have apart := (Bool.or_eq_false_iff.mp separate.2).1
    rintro same
    rw [Option.some.inj same] at apart
    contradiction

/-- The lines behind a line break that another one follows start with an empty line. -/
theorem singleLines_break (split : Bool) (margin column : Nat) (after : Bool) (cs : List Char) :
    (singleLines split margin column after ('\n' :: cs)).first = [] ∧
      (singleLines split margin column after ('\n' :: cs)).rest ≠ [] := by
  rw [singleLines]
  simp only [if_true]
  split <;> exact ⟨rfl, nofun⟩

/-- Lines that spell a text between single quotes once they are closed. -/
def Closes (n : Nat) (after : Bool) (cs : List Char) (l : Lines) : Prop :=
  Single n after cs ((l.close ['\'']).joined n)

namespace Closes

variable {l : Lines} {after : Bool}

theorem quote (closes : Closes n false cs l) : Closes n after ('\'' :: cs) (l.lead ['\'', '\'']) := by
  rw [Closes, close_lead, joined_lead]
  exact .quote closes

theorem char (unbroken : x ≠ '\n') (other : x ≠ '\'') (closes : Closes n (x == ' ') cs l) :
    Closes n after (x :: cs) (l.lead [x]) := by
  rw [Closes, close_lead, joined_lead]
  exact .char unbroken other closes

/-- A space at which the line is folded. -/
theorem fold (visible : cs.head? ≠ some ' ') (unbroken : cs.head? ≠ some '\n') (present : cs ≠ [])
    (closes : Closes n true cs l) : Closes n false (' ' :: cs) (l.below []) := by
  obtain ⟨y, w, starts, inner, -⟩ := Single.head closes unbroken visible
  obtain ⟨x, ds, rfl⟩ := List.exists_cons_of_ne_nil present
  rw [Closes, close_below, joined_below [] (first_ne_nil starts inner)]
  exact .fold (fun same => visible (by rw [same]; rfl)) (fun same => unbroken (by rw [same]; rfl))
    closes

/-- The last of several breaks has an empty line in front of it. -/
theorem last (visible : cs.head? ≠ some ' ') (unbroken : cs.head? ≠ some '\n')
    (closes : Closes n false cs l) : Closes n false ('\n' :: cs) ((l.below []).below []) := by
  obtain ⟨x, w, starts, inner, -⟩ := Single.head closes unbroken visible
  rw [Closes, close_below, close_below, joined_below_empty [] rfl,
    joined_below [] (first_ne_nil starts inner)]
  exact .last unbroken visible closes

/-- A break in front of another one. -/
theorem more (empty : l.first = []) (several : l.rest ≠ []) (closes : Closes n false ('\n' :: cs) l) :
    Closes n false ('\n' :: '\n' :: cs) (l.below []) := by
  have first := (close_first ['\''] several).trans empty
  rw [Closes, close_below, joined_below_empty [] first]
  exact .more closes

end Closes

/-- Lines between single quotes spell their text. -/
theorem single_lines (n : Nat) (split : Bool) (margin column : Nat) (after : Bool) (cs : List Char)
    (separate : Separate cs) (behind : after = true → cs.head? ≠ some '\n') :
    Closes n after cs (singleLines split margin column after cs) := by
  induction cs generalizing column after with
  | nil => exact .nil
  | cons c cs ih =>
    by_cases broken : c = '\n'
    · subst broken
      obtain rfl : after = false := by
        cases after with
        | false => rfl
        | true => exact absurd rfl (behind rfl)
      have next := ih margin false separate.tail nofun
      rw [singleLines]
      simp only [if_true]
      by_cases again : cs.head? = some '\n'
      · obtain ⟨ds, rfl⟩ := List.head?_eq_some_iff.mp again
        obtain ⟨empty, several⟩ := singleLines_break split margin margin false ds
        have more := next.more empty several
        rwa [Lines.below, empty] at more
      · rw [if_neg again]
        exact next.last separate.behind_break again
    · rw [singleLines, if_neg broken]
      split
      · rename_i folds
        simp only [foldsAt, Bool.and_eq_true, Bool.not_eq_true', beq_iff_eq, bne_iff_ne] at folds
        obtain ⟨⟨⟨⟨⟨-, rfl⟩, rfl⟩, some⟩, single⟩, -⟩ := folds
        have unbroken := separate.behind_space
        have next := ih margin true separate.tail fun _ => unbroken
        exact next.fold single unbroken (by simpa using some)
      · split
        · rename_i quote
          subst quote
          exact (ih (column + 2) false separate.tail nofun).quote
        · rename_i other
          refine .char broken other (ih (column + 1) (c == ' ') separate.tail fun space => ?_)
          rw [beq_iff_eq] at space
          subst space
          exact separate.behind_space

/-! ## Text between double quotes -/

/-- What a reader makes of lines between double quotes that spell a text, up to the closing quote. A
character stands for itself or is escaped, and a space may be escaped, too. Between two characters the
line may be folded, unless the backslash that marks the fold comes right behind the one that guards a
space: then the two are an escaped backslash, and the break behind it is a space. -/
inductive Double (n : Nat) : List Char → List Char → Prop
  | nil : Double n [] ['"']
  | char {c : Char} {cs w : List Char} : escape? c = none → Double n cs w →
      Double n (c :: cs) (c :: w)
  | escape {c : Char} {e cs w : List Char} : escape? c = some e → Double n cs w →
      Double n (c :: cs) (e ++ w)
  | space {cs w : List Char} : Double n cs w → Double n (' ' :: cs) ('\\' :: ' ' :: w)
  | fold {x : Char} {cs w : List Char} : x ≠ ' ' → Double n cs (x :: w) →
      Double n cs ('\\' :: '\n' :: (List.replicate n ' ' ++ x :: w))
  | slip {cs w : List Char} : Double n cs w → Double n ('\\' :: ' ' :: ' ' :: cs)
      ('\\' :: '\\' :: '\n' :: (List.replicate n ' ' ++ '\\' :: ' ' :: w))

/-- Whether a character is escaped and a space follows it that is not the last character. -/
def escapesBeforeSpace (c : Char) (cs : List Char) : Bool :=
  (escape? c).isSome && cs.head? == some ' ' && decide (1 < cs.length)

/-- What a reader makes of a text from its second character on; the flag tells whether the guards of
spaces slip, since the margin is beyond the best width. -/
def slipped (wide : Bool) : List Char → List Char
  | [] => []
  | c :: cs =>
    if wide && escapesBeforeSpace c cs then c :: '\\' :: ' ' :: slipped wide cs
    else c :: slipped wide cs

/-- What a reader makes of a text. No line is folded behind its first character. -/
def reread (wide : Bool) : List Char → List Char
  | [] => []
  | c :: cs => c :: slipped wide cs

variable {split wide : Bool} {margin column : Nat} {pending : List Char} {c : Char} {e : List Char}

theorem slipped_escape (escapes : escapesBeforeSpace c cs = true) :
    slipped true (c :: cs) = c :: '\\' :: ' ' :: slipped true cs := by
  rw [slipped, escapes]
  rfl

theorem slipped_other (other : wide = false ∨ escapesBeforeSpace c cs = false) :
    slipped wide (c :: cs) = c :: slipped wide cs := by
  have firm : ¬ (wide && escapesBeforeSpace c cs) = true := by
    rcases other with narrow | apart
    · simp [narrow]
    · simp [apart]
  rw [slipped, if_neg firm]

theorem escapesBeforeSpace_plain (plain : escape? c = none) (cs : List Char) :
    escapesBeforeSpace c cs = false := by
  simp [escapesBeforeSpace, plain]

/-- Escapes start with a backslash. -/
theorem exists_escape (escaped : escape? c = some e) : ∃ d e', e = '\\' :: d :: e' := by
  unfold escape? at escaped
  split at escaped
  · exact ⟨_, _, (Option.some.inj escaped).symm⟩
  · split at escaped
    · contradiction
    · split at escaped
      · exact ⟨_, _, (Option.some.inj escaped).symm⟩
      · split at escaped <;> exact ⟨_, _, (Option.some.inj escaped).symm⟩

theorem doubleLines_escape (escaped : escape? c = some e) (inner : Bool) :
    doubleLines split margin inner column pending (c :: cs) =
      if split && inner && !cs.isEmpty &&
          decide (bestWidth + 1 < column + (pending.reverse ++ e).length) then
        ((doubleLines split margin true (margin + (guard cs).length) [] cs).lead (guard cs)).below
          (pending.reverse ++ e ++ ['\\'])
      else (doubleLines split margin true (column + (pending.reverse ++ e).length) [] cs).lead
        (pending.reverse ++ e) := by
  rw [doubleLines, escaped]

theorem doubleLines_plain (plain : escape? c = none) (inner : Bool) :
    doubleLines split margin inner column pending (c :: cs) =
      if split && inner && !cs.isEmpty && (c == ' ' || pending.isEmpty) &&
          decide (bestWidth < column + pending.length) then
        ((doubleLines split margin true (margin + (guard [c]).length) [c] cs).lead (guard [c])).below
          (pending.reverse ++ ['\\'])
      else doubleLines split margin true column (c :: pending) cs := by
  rw [doubleLines, plain]

/-- The lines behind a fold go on with a character that is no space. -/
theorem Double.behind_fold {l : Lines} (rest : Double n cs (l.joined n))
    (starts : l.joined n = x :: w) (inner : x ≠ '\n') (visible : x ≠ ' ') (front : List Char) :
    ∃ w', (l.below (front ++ ['\\'])).joined n = front ++ w' ∧ Double n cs w' := by
  refine ⟨'\\' :: '\n' :: (List.replicate n ' ' ++ l.joined n), ?_, ?_⟩
  · rw [joined_below _ (first_ne_nil starts inner)]
    simp
  · rw [starts] at rest ⊢
    exact .fold visible rest

/-- A text is spelled from a backslash on, or from its first character on, or it has ended. -/
theorem Double.head (double : Double n cs w) :
    ∃ x w', w = x :: w' ∧ (x = '\\' ∨ x = '"' ∨ cs.head? = some x ∧ escape? x = none) := by
  cases double with
  | nil => exact ⟨_, _, rfl, .inr (.inl rfl)⟩
  | char plain => exact ⟨_, _, rfl, .inr (.inr ⟨rfl, plain⟩)⟩
  | escape escaped =>
    obtain ⟨d, e, rfl⟩ := exists_escape escaped
    exact ⟨_, _, rfl, .inl rfl⟩
  | space => exact ⟨_, _, rfl, .inl rfl⟩
  | fold => exact ⟨_, _, rfl, .inl rfl⟩
  | slip => exact ⟨_, _, rfl, .inl rfl⟩

/-- What is written from a character on that is neither a space nor escaped starts with no space and
no break. -/
theorem Double.head_visible (double : Double n cs w) (visible : cs.head? ≠ some ' ') :
    ∃ x w', w = x :: w' ∧ x ≠ '\n' ∧ x ≠ ' ' := by
  obtain ⟨x, w', starts, rfl | rfl | ⟨head, plain⟩⟩ := double.head
  · exact ⟨_, _, starts, by decide, by decide⟩
  · exact ⟨_, _, starts, by decide, by decide⟩
  · refine ⟨x, w', starts, ?_, fun blank => visible (by rw [head, blank])⟩
    rintro rfl
    contradiction

/-- Whether the guards of spaces slip: lines are folded, at a margin beyond the best width. -/
def isWide (split : Bool) (margin : Nat) : Bool := split && decide (bestWidth ≤ margin)

/-- Whether the lines from the second character of a text on, together with the characters that are
still to be written, spell what a reader makes of them. -/
def Spells (n : Nat) (split : Bool) (margin column : Nat) (pending cs : List Char) : Prop :=
  ∃ w, ((doubleLines split margin true column pending cs).close ['"']).joined n =
    pending.reverse ++ w ∧ Double n (slipped (isWide split margin) cs) w

/-- Whether lines behind a fold start with neither a space nor a break and spell what a reader makes of
a text. -/
def Opens (n : Nat) (wide : Bool) (l : Lines) (cs : List Char) : Prop :=
  ∃ x w, l.joined n = x :: w ∧ x ≠ '\n' ∧ x ≠ ' ' ∧ Double n (slipped wide cs) (x :: w)

/-- A text that goes on on the line of an escape. -/
theorem Spells.escape (escaped : escape? c = some e)
    (firm : isWide split margin = false ∨ escapesBeforeSpace c cs = false)
    (stays : ¬ (split && true && !cs.isEmpty &&
      decide (bestWidth + 1 < column + (pending.reverse ++ e).length)) = true)
    (rest : Spells n split margin (column + (pending.reverse ++ e).length) [] cs) :
    Spells n split margin column pending (c :: cs) := by
  obtain ⟨w, same, double⟩ := rest
  rw [List.reverse_nil, List.nil_append] at same
  refine ⟨e ++ w, ?_, ?_⟩
  · rw [doubleLines_escape escaped, if_neg stays, close_lead, joined_lead, same, List.append_assoc]
  · rw [slipped_other firm]
    exact .escape escaped double

/-- A text whose line is folded behind an escape. -/
theorem Spells.escape_fold (escaped : escape? c = some e)
    (firm : isWide split margin = false ∨ escapesBeforeSpace c cs = false)
    (folds : (split && true && !cs.isEmpty &&
      decide (bestWidth + 1 < column + (pending.reverse ++ e).length)) = true)
    (rest : Opens n (isWide split margin)
      (((doubleLines split margin true (margin + (guard cs).length) [] cs).close ['"']).lead
        (guard cs)) cs) :
    Spells n split margin column pending (c :: cs) := by
  obtain ⟨x, w, starts, inner, visible, double⟩ := rest
  rw [← starts] at double
  obtain ⟨v, same, own⟩ := double.behind_fold starts inner visible (pending.reverse ++ e)
  refine ⟨e ++ v, ?_, ?_⟩
  · rw [doubleLines_escape escaped, if_pos folds, close_below, close_lead, same, List.append_assoc]
  · rw [slipped_other firm]
    exact .escape escaped own

/-- A text that goes on on the line of a character without an escape. -/
theorem Spells.plain (plain : escape? c = none)
    (stays : ¬ (split && true && !cs.isEmpty && (c == ' ' || pending.isEmpty) &&
      decide (bestWidth < column + pending.length)) = true)
    (rest : Spells n split margin column (c :: pending) cs) :
    Spells n split margin column pending (c :: cs) := by
  obtain ⟨w, same, double⟩ := rest
  refine ⟨c :: w, ?_, ?_⟩
  · rw [doubleLines_plain plain, if_neg stays, same]
    simp
  · rw [slipped_other (.inr (escapesBeforeSpace_plain plain cs))]
    exact .char plain double

/-- A line that starts with a character, which is guarded if it is a space. -/
theorem Spells.guarded (plain : escape? c = none) (rest : Spells n split margin column [c] cs) :
    Opens n (isWide split margin)
      (((doubleLines split margin true column [c] cs).close ['"']).lead (guard [c])) (c :: cs) := by
  obtain ⟨w, same, double⟩ := rest
  rw [Opens, slipped_other (.inr (escapesBeforeSpace_plain plain cs)), joined_lead, same]
  by_cases space : c = ' '
  · subst space
    exact ⟨'\\', ' ' :: w, rfl, by decide, by decide, .space double⟩
  · have bare : guard [c] = [] := if_neg fun same => space (Option.some.inj same)
    refine ⟨c, w, by rw [bare]; rfl, ?_, space, .char plain double⟩
    rintro rfl
    contradiction

/-- A text whose line is folded before a character without an escape. -/
theorem Spells.plain_fold (plain : escape? c = none)
    (folds : (split && true && !cs.isEmpty && (c == ' ' || pending.isEmpty) &&
      decide (bestWidth < column + pending.length)) = true)
    (rest : Spells n split margin (margin + (guard [c]).length) [c] cs) :
    Spells n split margin column pending (c :: cs) := by
  obtain ⟨x, w, starts, inner, visible, double⟩ := rest.guarded plain
  rw [← starts] at double
  obtain ⟨v, same, own⟩ := double.behind_fold starts inner visible pending.reverse
  refine ⟨v, ?_, own⟩
  rw [doubleLines_plain plain, if_pos folds, close_below, close_lead, same]

/-- Behind a fold the guard of a space slips if the line is folded again at the space. -/
theorem Spells.slip (escaped : escape? c = some e) (wide : isWide split margin = true)
    (several : cs ≠ []) (reaches : margin ≤ column)
    (rest : Spells n split margin (margin + 1) [' '] cs) :
    Spells n split margin column pending (c :: ' ' :: cs) := by
  obtain ⟨w, same, double⟩ := rest
  obtain ⟨splits, beyond⟩ := Bool.and_eq_true_iff.mp wide
  have beyond : bestWidth ≤ margin := of_decide_eq_true beyond
  have long : 2 ≤ e.length := by
    obtain ⟨d, e, rfl⟩ := exists_escape escaped
    simp
  have escapes : escapesBeforeSpace c (' ' :: cs) = true := by
    have count := List.length_pos_iff.mpr several
    simp [escapesBeforeSpace, escaped, count]
  have folds : (split && true && !(' ' :: cs).isEmpty &&
      decide (bestWidth + 1 < column + (pending.reverse ++ e).length)) = true := by
    simp [splits]
    omega
  have again : (split && true && !cs.isEmpty && (' ' == ' ' || ([] : List Char).isEmpty) &&
      decide (bestWidth < margin + 1 + ([] : List Char).length)) = true := by
    simp [splits, several]
    omega
  generalize lines : doubleLines split margin true (margin + 1) [' '] cs = l at same
  have second : doubleLines split margin true (margin + (guard (' ' :: cs)).length) [] (' ' :: cs) =
      (l.lead ['\\']).below ['\\'] := by
    rw [← lines]
    exact (doubleLines_plain rfl true).trans (if_pos again)
  have whole : doubleLines split margin true column pending (c :: ' ' :: cs) =
      ((((l.lead ['\\']).below ['\\']).lead ['\\']).below (pending.reverse ++ e ++ ['\\'])) := by
    rw [doubleLines_escape escaped, if_pos folds, second]
    rfl
  have first : ((l.close ['"']).lead ['\\']).first ≠ [] := List.cons_ne_nil _ _
  have below : ((((l.close ['"']).lead ['\\']).below ['\\']).lead ['\\']).first ≠ [] := List.cons_ne_nil _ _
  refine ⟨e ++ '\\' :: '\n' :: (List.replicate n ' ' ++ '\\' :: '\\' :: '\n' ::
    (List.replicate n ' ' ++ '\\' :: ' ' :: w)), ?_, ?_⟩
  · rw [whole, close_below, close_lead, close_below, close_lead, joined_below _ below, joined_lead,
      joined_below _ first, joined_lead, same]
    simp
  · rw [wide, slipped_escape escapes, slipped_other (.inr (escapesBeforeSpace_plain rfl cs))]
    rw [wide] at double
    exact .escape escaped (.fold (by decide) (.slip double))

/-- Behind a fold a space is guarded. -/
theorem opens_space (firm : isWide split margin = false ∨ cs = []) (splits : split = true)
    (rest : Spells n split margin (margin + 1) [' '] cs) :
    Opens n (isWide split margin) (((doubleLines split margin true
      (margin + (guard (' ' :: cs)).length) [] (' ' :: cs)).close ['"']).lead (guard (' ' :: cs)))
        (' ' :: cs) := by
  have stays : ¬ (split && true && !cs.isEmpty && (' ' == ' ' || ([] : List Char).isEmpty) &&
      decide (bestWidth < margin + 1 + ([] : List Char).length)) = true := by
    rcases firm with narrow | rfl
    · have near : margin < bestWidth := by simpa [isWide, splits] using narrow
      simp
      omega
    · simp
  have lines : doubleLines split margin true (margin + (guard (' ' :: cs)).length) [] (' ' :: cs) =
      doubleLines split margin true (margin + 1) [' '] cs :=
    (doubleLines_plain rfl true).trans (if_neg stays)
  rw [lines]
  exact rest.guarded rfl

theorem head?_slipped (wide : Bool) (cs : List Char) : (slipped wide cs).head? = cs.head? := by
  cases cs with
  | nil => rfl
  | cons c cs =>
    rw [slipped]
    split <;> rfl

/-- Behind a fold any other character stands at the margin. -/
theorem opens_visible (other : cs.head? ≠ some ' ') (rest : Spells n split margin margin [] cs) :
    Opens n (isWide split margin) (((doubleLines split margin true
      (margin + (guard cs).length) [] cs).close ['"']).lead (guard cs)) cs := by
  obtain ⟨w, same, double⟩ := rest
  have bare : guard cs = [] := if_neg other
  obtain ⟨x, v, rfl, inner, visible⟩ := double.head_visible (by rwa [head?_slipped])
  refine ⟨x, v, ?_, inner, visible, double⟩
  rw [bare, joined_lead]
  exact same

/-- Lines between double quotes spell what a reader makes of their text. -/
theorem spells (n : Nat) (split : Bool) (margin column : Nat) (pending cs : List Char)
    (reaches : isWide split margin = true → margin ≤ column) :
    Spells n split margin column pending cs := by
  match cs with
  | [] => exact ⟨['"'], by simp [doubleLines, close, joined], .nil⟩
  | c :: cs =>
    cases escaped : escape? c with
    | none =>
      by_cases folds : (split && true && !cs.isEmpty && (c == ' ' || pending.isEmpty) &&
          decide (bestWidth < column + pending.length)) = true
      · exact .plain_fold escaped folds
          (spells n split margin _ [c] cs fun _ => Nat.le_add_right _ _)
      · exact .plain escaped folds (spells n split margin column (c :: pending) cs reaches)
    | some e =>
      by_cases space : cs.head? = some ' '
      · obtain ⟨ds, rfl⟩ : ∃ ds, cs = ' ' :: ds := by
          cases cs with
          | nil => contradiction
          | cons d ds => exact ⟨ds, by rw [Option.some.inj space]⟩
        have rest := spells n split margin (margin + 1) [' '] ds fun _ => Nat.le_add_right _ _
        by_cases firm : isWide split margin = false ∨ ds = []
        · have apart : isWide split margin = false ∨ escapesBeforeSpace c (' ' :: ds) = false :=
            firm.imp_right fun last => by simp [escapesBeforeSpace, last]
          by_cases folds : (split && true && !(' ' :: ds).isEmpty &&
              decide (bestWidth + 1 < column + (pending.reverse ++ e).length)) = true
          · exact .escape_fold escaped apart folds (opens_space firm (by simp_all) rest)
          · exact .escape escaped apart folds
              (spells n split margin _ [] (' ' :: ds) fun wide => by have := reaches wide; omega)
        · obtain ⟨wide, several⟩ := not_or.mp firm
          have wide : isWide split margin = true := by simpa using wide
          exact .slip escaped wide several (reaches wide) rest
      · have apart : isWide split margin = false ∨ escapesBeforeSpace c cs = false :=
          .inr (by simp [escapesBeforeSpace, space])
        by_cases folds : (split && true && !cs.isEmpty &&
            decide (bestWidth + 1 < column + (pending.reverse ++ e).length)) = true
        · exact .escape_fold escaped apart folds (opens_visible space
            (spells n split margin margin [] cs fun _ => Nat.le_refl _))
        · exact .escape escaped apart folds
            (spells n split margin _ [] cs fun wide => by have := reaches wide; omega)
termination_by cs.length

/-- Lines between double quotes spell what a reader makes of their text. -/
theorem double_lines (n : Nat) (split : Bool) (margin column : Nat) (cs : List Char)
    (reaches : isWide split margin = true → margin ≤ column) :
    Double n (reread (isWide split margin) cs)
      (((doubleLines split margin false column [] cs).close ['"']).joined n) := by
  cases cs with
  | nil => exact .nil
  | cons c cs =>
    cases escaped : escape? c with
    | some e =>
      obtain ⟨w, same, double⟩ := spells n split margin (column + e.length) [] cs
        fun wide => Nat.le_trans (reaches wide) (Nat.le_add_right _ _)
      have lines : doubleLines split margin false column [] (c :: cs) =
          (doubleLines split margin true (column + e.length) [] cs).lead e :=
        (doubleLines_escape escaped false).trans (if_neg (by simp))
      rw [lines, close_lead, joined_lead, same]
      exact .escape escaped double
    | none =>
      obtain ⟨w, same, double⟩ := spells n split margin column [c] cs reaches
      have lines : doubleLines split margin false column [] (c :: cs) =
          doubleLines split margin true column [c] cs :=
        (doubleLines_plain escaped false).trans (if_neg (by simp))
      rw [lines, same]
      exact .char escaped double

/-- Whether no guard of a space slips in a text. -/
def guardsHold (wide : Bool) : List Char → Bool
  | [] => true
  | c :: cs => !(wide && escapesBeforeSpace c cs) && guardsHold wide cs

theorem length_slipped (wide : Bool) (cs : List Char) : cs.length ≤ (slipped wide cs).length := by
  induction cs with
  | nil => exact Nat.le_refl _
  | cons c cs ih =>
    rw [slipped]
    split <;> simp <;> omega

theorem slipped_eq_self (wide : Bool) (cs : List Char) :
    slipped wide cs = cs ↔ guardsHold wide cs = true := by
  induction cs with
  | nil => simp [slipped, guardsHold]
  | cons c cs ih =>
    rw [slipped, guardsHold]
    split
    · rename_i slips
      have longer := length_slipped wide cs
      have differs : c :: '\\' :: ' ' :: slipped wide cs ≠ c :: cs := fun same => by
        have := congrArg List.length same
        simp at this
        omega
      simp [slips, differs]
    · rename_i firm
      simp [firm, ih]

theorem reread_eq_self (wide : Bool) (cs : List Char) :
    reread wide cs = cs ↔ guardsHold wide cs.tail = true := by
  cases cs with
  | nil => simp [reread, guardsHold]
  | cons c cs => simp [reread, slipped_eq_self]

end Style

end LiveDoc.Yaml
