import LiveDoc.Proofs.JsonText
import LiveDoc.Yaml.Token

/-!
# Folding in quoted text

The reader of a quoted scalar folds the lines of its text. Three characters end a line in YAML although
a JSON string may hold them as they are. The reader turns the first of them, the next line, into a space
or a line feed; it keeps the two separators, but drops the spaces around them and refuses a document
marker behind them. What it makes of a text is the text itself exactly if folding has nothing to do in
it.
-/

namespace LiveDoc.Yaml.Scalar

/-! ## Texts that folding leaves as they are -/

/-- Whether a character ends a line although a JSON string may hold it as it is: the next line and the
two separators. -/
def isRawBreak (c : Char) : Bool := c == '\u0085' || c == '\u2028' || c == '\u2029'

/-- Whether a character of a string is neither a space nor such a break. -/
def isInner (c : Char) : Bool := c != ' ' && !isRawBreak c

/-- Whether a text begins with a document marker and a character that ends it. -/
def isMarker (cs : List Char) : Bool :=
  (cs.take 3 == ['-', '-', '-'] || cs.take 3 == ['.', '.', '.']) && (cs.drop 3).head?.any (!isInner ·)

/-- Whether folding leaves a text as it is: there is no next line in it, and no separator stands next
to a space or before a document marker. -/
def foldFree : List Char → Bool
  | [] => true
  | c :: cs =>
    (if isRawBreak c then c != '\u0085' && !cs.head?.any (· == ' ') && !isMarker cs
      else c != ' ' || !cs.head?.any isRawBreak) && foldFree cs

/-- Whether a text is empty or begins with an inner character. -/
def startsInner (cs : List Char) : Bool := cs.head?.all isInner

variable {n : Nat} {b x : Char} {cs r t u : List Char}

/-- A character that is not inner is a space or one of the three breaks. -/
theorem outer_cases (outer : isInner x = false) :
    x = ' ' ∨ x = '\u0085' ∨ x = '\u2028' ∨ x = '\u2029' := by
  rcases Bool.and_eq_false_iff.mp outer with space | raw
  · exact .inl (by simpa using space)
  · simp only [isRawBreak, Bool.not_eq_false', Bool.or_eq_true, beq_iff_eq, or_assoc] at raw
    exact .inr raw

theorem outer_of_raw (raw : isRawBreak b = true) : isInner b = false := by simp [isInner, raw]

/-- What begins with neither a space nor an inner character begins with a break. -/
theorem exists_raw (starts : startsInner u = false) (other : ∀ x, u.head? = some x → x ≠ ' ') :
    ∃ b t, u = b :: t ∧ isRawBreak b = true := by
  cases u with
  | nil => contradiction
  | cons b t =>
    have outer : isInner b = false := starts
    exact ⟨b, t, rfl, by simpa [isInner, other b rfl] using outer⟩

theorem head_ne_blank (starts : startsInner u = true) : ∀ x, u.head? = some x → x ≠ ' ' := by
  rintro x head rfl
  rw [startsInner, head] at starts
  contradiction

theorem foldFree_inner (inner : isInner x = true) : foldFree (x :: cs) = foldFree cs := by
  obtain ⟨space, raw⟩ := Bool.and_eq_true_iff.mp inner
  have raw : isRawBreak x = false := by simpa using raw
  simp [foldFree, raw, space]

theorem foldFree_blank : foldFree (' ' :: cs) = (!cs.head?.any isRawBreak && foldFree cs) := rfl

theorem foldFree_raw (raw : isRawBreak b = true) : foldFree (b :: cs) =
    (b != '\u0085' && !cs.head?.any (· == ' ') && !isMarker cs && foldFree cs) := by
  simp [foldFree, raw]

/-- Inner characters in front have no part in folding. -/
theorem foldFree_run (inner : r.all isInner = true) : foldFree (r ++ cs) = foldFree cs := by
  induction r with
  | nil => rfl
  | cons x r ih =>
    obtain ⟨own, others⟩ := Bool.and_eq_true_iff.mp inner
    rw [List.cons_append, foldFree_inner own, ih others]

/-- Nor have spaces before an inner character. -/
theorem foldFree_blanks (starts : startsInner cs = true) :
    foldFree (List.replicate n ' ' ++ cs) = foldFree cs := by
  induction n with
  | zero => rfl
  | succ n ih =>
    have next : (List.replicate n ' ' ++ cs).head?.any isRawBreak = false := by
      cases n with
      | zero =>
        cases cs with
        | nil => rfl
        | cons x cs =>
          have inner : isInner x = true := starts
          simpa using (Bool.and_eq_true_iff.mp inner).2
      | succ n => rfl
    rw [List.replicate_succ, List.cons_append, foldFree_blank, next, ih]
    rfl

/-- Spaces before a break are lost. -/
theorem foldFree_blanks_raw (raw : isRawBreak b = true) :
    foldFree (List.replicate (n + 1) ' ' ++ b :: cs) = false := by
  induction n with
  | zero =>
    change foldFree (' ' :: b :: cs) = false
    simp [foldFree_blank, raw]
  | succ n ih => rw [List.replicate_succ, List.cons_append, foldFree_blank, ih, Bool.and_false]

theorem foldFree_blanks_broken (raw : isRawBreak b = true) (broken : foldFree (b :: cs) = false) :
    foldFree (List.replicate n ' ' ++ b :: cs) = false := by
  cases n with
  | zero => exact broken
  | succ n => exact foldFree_blanks_raw raw

/-- Every text is a run of inner characters and what follows it. -/
theorem exists_run (t : List Char) :
    ∃ r u, t = r ++ u ∧ r.all isInner = true ∧ ∀ x, u.head? = some x → isInner x = false := by
  refine ⟨t.takeWhile isInner, t.dropWhile isInner, List.takeWhile_append_dropWhile.symm,
    List.all_takeWhile, fun x head => ?_⟩
  have stops := List.head?_dropWhile_not isInner t
  rw [head] at stops
  simpa using stops

/-- Every text is some spaces and what follows them. -/
theorem exists_blanks (t : List Char) :
    ∃ n u, t = List.replicate n ' ' ++ u ∧ ∀ x, u.head? = some x → x ≠ ' ' := by
  refine ⟨(t.takeWhile (· == ' ')).length, t.dropWhile (· == ' '), ?_, fun x head => ?_⟩
  · have blanks : t.takeWhile (· == ' ') = List.replicate (t.takeWhile (· == ' ')).length ' ' :=
      List.eq_replicate_of_mem fun x inside => by
        simpa using List.all_eq_true.mp List.all_takeWhile x inside
    rw [← blanks, List.takeWhile_append_dropWhile]
  · have stops := List.head?_dropWhile_not (· == ' ') t
    rw [head] at stops
    simpa using stops

/-- There is no next line among inner characters. -/
theorem noNextLine_run (inner : r.all isInner = true) : '\u0085' ∉ r := fun inside => by
  have := List.all_eq_true.mp inner _ inside
  contradiction

/-! ## Breaks and what follows them -/

/-- A break as it counts in a scalar. -/
def folded (b : Char) : Char := if b = '\u0085' then '\n' else b

theorem folded_of_ne (other : b ≠ '\u0085') : folded b = b := if_neg other

theorem folded_ne (b : Char) : folded b ≠ '\u0085' := by
  unfold folded
  split
  · decide
  · assumption

/-- What the reader makes of the text behind a break: the further breaks, the part of the text that
they and the spaces between them take up, and the tail that follows. Folding leaves the break and the
text as they are if that part holds nothing but the breaks, and folding leaves the tail as it is. -/
structure Folds (t breaks gap tail : List Char) : Prop where
  split : t = gap ++ tail
  stops : startsInner tail = true
  short : breaks.length ≤ gap.length
  noNextLine : '\u0085' ∉ breaks
  free : ∀ b, isRawBreak b = true → b ≠ '\u0085' →
    (foldFree (b :: t) = true ↔ breaks = gap ∧ foldFree tail = true)

/-- Spaces behind a break take up a part of the text, and are no breaks. -/
theorem Folds.blanks (unmarked : isMarker (List.replicate n ' ' ++ cs) = false)
    (starts : startsInner cs = true) :
    Folds (List.replicate n ' ' ++ cs) [] (List.replicate n ' ') cs := by
  refine ⟨rfl, starts, Nat.zero_le _, by simp, fun b raw other => ?_⟩
  rw [foldFree_raw raw, unmarked, foldFree_blanks starts]
  cases n with
  | zero =>
    have space : cs.head?.any (· == ' ') = false := by
      cases cs with
      | nil => rfl
      | cons x cs =>
        have inner : isInner x = true := starts
        simpa using (Bool.and_eq_true_iff.mp inner).1
    simp [space, other]
  | succ n => simp [List.replicate_succ]

/-- A further break stands behind spaces. -/
theorem Folds.cons {breaks gap tail : List Char}
    (unmarked : isMarker (List.replicate n ' ' ++ b :: t) = false) (raw : isRawBreak b = true)
    (folds : Folds t breaks gap tail) : Folds (List.replicate n ' ' ++ b :: t) (folded b :: breaks)
      (List.replicate n ' ' ++ b :: gap) tail := by
  have short := folds.short
  refine ⟨by simp [folds.split], folds.stops, by simp; omega, ?_, fun d other apart => ?_⟩
  · simp [folds.noNextLine, Ne.symm (folded_ne b)]
  · rw [foldFree_raw other, unmarked]
    cases n with
    | zero =>
      have space : (b == ' ') = false := beq_false_of_ne fun same => by
        rw [same] at raw
        contradiction
      by_cases next : b = '\u0085'
      · have differs : ¬ folded b = b := by
          rw [next]
          decide
        have broken : foldFree (b :: t) = false := by
          rw [foldFree_raw raw, next]
          rfl
        simp [broken, differs]
      · simp [space, apart, folds.free b raw next, folded_of_ne next]
    | succ n =>
      have differs : folded b :: breaks ≠ List.replicate (n + 1) ' ' ++ b :: gap := fun same => by
        have := congrArg List.length same
        simp at this
        omega
      simp [foldFree_blanks_raw raw, differs]

/-! ## What becomes of a text -/

/-- What the first of several breaks becomes. -/
def joint (b : Char) (breaks : List Char) : List Char :=
  if folded b ≠ '\n' then [folded b] else if breaks.isEmpty then [' '] else []

theorem length_joint (b : Char) (breaks : List Char) : (joint b breaks).length ≤ 1 := by
  unfold joint
  repeat' split
  all_goals simp

theorem noNextLine_joint (b : Char) (breaks : List Char) : '\u0085' ∉ joint b breaks := by
  unfold joint
  repeat' split
  · simpa using Ne.symm (folded_ne b)
  · decide
  · simp

/-- A separator stays as it is. -/
theorem joint_of_ne (raw : isRawBreak b = true) (other : b ≠ '\u0085') (breaks : List Char) :
    joint b breaks = [b] := by
  have line : b ≠ '\n' := by
    rintro rfl
    contradiction
  rw [joint, folded_of_ne other, if_pos line]

/-- What the reader makes of a text: it lengthens nothing and leaves no next line, and what it reads is
the text itself if and only if folding leaves that as it is. -/
structure Kept (t : List Char) (o : Except Halt (List Char)) : Prop where
  short : ∀ cs, o = .ok cs → cs.length ≤ t.length
  noNextLine : ∀ cs, o = .ok cs → '\u0085' ∉ cs
  free : o = .ok t ↔ foldFree t = true

variable {o : Except Halt (List Char)} {front : List Char}

theorem Kept.nil : Kept [] (.ok []) := ⟨by simp, by simp, by simp [foldFree]⟩

theorem Kept.failed {h : Halt} (broken : foldFree t = false) : Kept t (.error h) :=
  ⟨nofun, nofun, by simp [broken]⟩

/-- A text behind one that folding has no part in. -/
theorem Kept.behind (kept : Kept t o) (noNext : '\u0085' ∉ front)
    (apart : foldFree (front ++ t) = foldFree t) : Kept (front ++ t) (o.map (front ++ ·)) := by
  refine ⟨fun cs same => ?_, fun cs same => ?_, ?_⟩
  · obtain ⟨ds, ended, rfl⟩ := Json.map_ok same
    have := kept.short ds ended
    simp only [List.length_append]
    omega
  · obtain ⟨ds, ended, rfl⟩ := Json.map_ok same
    simp [noNext, kept.noNextLine ds ended]
  · rw [apart, ← kept.free]
    refine ⟨fun same => ?_, fun same => by rw [same]; rfl⟩
    obtain ⟨ds, ended, same⟩ := Json.map_ok same
    rw [ended, List.append_cancel_left same]

/-- A text behind breaks. It is counted that nothing was dropped where the text comes back. -/
theorem Kept.breaks {breaks gap tail : List Char} (raw : isRawBreak b = true)
    (folds : Folds t breaks gap tail) (kept : Kept tail o) :
    Kept (List.replicate n ' ' ++ b :: t) (o.map (joint b breaks ++ breaks ++ ·)) := by
  have single := length_joint b breaks
  have noNext := noNextLine_joint b breaks
  have shorter := folds.short
  have split := folds.split
  refine ⟨fun cs same => ?_, fun cs same => ?_, fun same => ?_, fun free => ?_⟩
  · obtain ⟨ds, ended, rfl⟩ := Json.map_ok same
    have := kept.short ds ended
    simp [split]
    omega
  · obtain ⟨ds, ended, rfl⟩ := Json.map_ok same
    simp [noNext, folds.noNextLine, kept.noNextLine ds ended]
  · obtain ⟨ds, ended, same⟩ := Json.map_ok same
    have less := kept.short ds ended
    have count := congrArg List.length same
    simp only [List.length_append, List.length_replicate, List.length_cons, split] at count
    obtain rfl : n = 0 := by omega
    have other : b ≠ '\u0085' := by
      rintro rfl
      have inside : '\u0085' ∈ joint '\u0085' breaks ++ breaks ++ ds := by
        rw [same]
        simp
      simp [noNext, folds.noNextLine, kept.noNextLine ds ended] at inside
    have parts : breaks ++ ds = gap ++ tail := by simpa [joint_of_ne raw other, split] using same
    obtain ⟨rfl, rfl⟩ := List.append_inj parts (by simp [joint_of_ne raw other] at count; omega)
    exact (folds.free b raw other).mpr ⟨rfl, kept.free.mp ended⟩
  · obtain rfl : n = 0 := by
      cases n with
      | zero => rfl
      | succ n =>
        rw [foldFree_blanks_raw raw] at free
        contradiction
    have other : b ≠ '\u0085' := by
      rintro rfl
      simp [foldFree_raw raw] at free
    obtain ⟨rfl, rest⟩ := (folds.free b raw other).mp free
    rw [kept.free.mpr rest, joint_of_ne raw other, split]
    simp [Except.map]

end LiveDoc.Yaml.Scalar
