import LiveDoc.Yaml.Cursor

/-!
# Laws of cursors

A cursor that has moved over some characters has the rest of its text ahead. Its mark counts them, and
counts the line breaks among them.
-/

namespace LiveDoc.Yaml

/-- A mark counts every character. -/
theorem Mark.after_index (m : Mark) (x next : Char) : (m.after x next).index = m.index + 1 := by
  unfold Mark.after
  repeat' split
  all_goals rfl

/-- It counts lines by their breaks. A carriage return may be half of one. -/
theorem Mark.after_line (m : Mark) {x : Char} (next : Char) (whole : x ≠ '\r') :
    (m.after x next).line = m.line + if isBreak x then 1 else 0 := by
  unfold Mark.after isBreak
  repeat' split
  all_goals simp_all

namespace Cursor

variable {c : Cursor} {front back : List Char} {x : Char} {n : Nat}

theorem next_rest (c : Cursor) : c.next.rest = c.rest.tail := by
  unfold next
  split <;> simp [*]

theorem skip_rest (c : Cursor) (n : Nat) : (c.skip n).rest = c.rest.drop n := by
  induction n generalizing c with
  | zero => rfl
  | succ n ih => rw [skip, ih, next_rest, List.drop_tail]

theorem skip_skip (c : Cursor) (m n : Nat) : (c.skip m).skip n = c.skip (m + n) := by
  induction m generalizing c with
  | zero => rw [Nat.zero_add, skip]
  | succ m ih => rw [skip, ih, Nat.add_right_comm, skip]

theorem skip_next (c : Cursor) (n : Nat) : (c.skip n).next = c.skip (n + 1) := skip_skip c n 1

/-- What stands ahead behind a text is what follows the text. -/
theorem skip_append (text : c.rest = front ++ back) : (c.skip front.length).rest = back := by
  rw [skip_rest, text, List.drop_left]

/-- Behind a margin is what follows the margin. -/
theorem skip_blanks (text : c.rest = List.replicate n ' ' ++ back) : (c.skip n).rest = back := by
  rw [skip_rest, text, List.drop_left' List.length_replicate]

theorem next_cons (text : c.rest = x :: back) : c.next.rest = back := by
  rw [next_rest, text, List.tail_cons]

theorem peek_cons (text : c.rest = x :: back) : c.peek = x := by
  simp [peek, text]

/-- A moved cursor has counted the characters. -/
theorem skip_index {n : Nat} (ahead : n ≤ c.rest.length) :
    (c.skip n).mark.index = c.mark.index + n := by
  induction n generalizing c with
  | zero => rfl
  | succ n ih =>
    obtain ⟨x, back, text⟩ : ∃ x back, c.rest = x :: back :=
      List.exists_cons_of_length_pos (Nat.zero_lt_of_lt ahead)
    have one : c.next.mark.index = c.mark.index + 1 := by
      unfold next
      rw [text]
      exact Mark.after_index ..
    have left : n ≤ c.next.rest.length := by
      rw [next_rest, List.length_tail]
      omega
    rw [skip, ih left, one]
    omega

/-- It has counted the line breaks among them. -/
theorem skip_line (text : c.rest = front ++ back) (whole : '\r' ∉ front) :
    (c.skip front.length).mark.line = c.mark.line + front.countP isBreak := by
  induction front generalizing c with
  | nil => rfl
  | cons x front ih =>
    rw [List.mem_cons, not_or] at whole
    have one : c.next.mark.line = c.mark.line + if isBreak x then 1 else 0 := by
      unfold next
      rw [text]
      exact Mark.after_line _ _ (Ne.symm whole.1)
    rw [List.length_cons, skip, ih (next_cons text) whole.2, one, List.countP_cons]
    omega

/-- No document marker begins with another character. -/
theorem atMarker_of_ne {m : Char} (text : c.rest = x :: back) (other : x ≠ m) :
    c.atMarker m = false := by
  simp [atMarker, text, other]

/-- Neither kind of document marker begins with another character. -/
theorem atSeparator_of_ne (text : c.rest = x :: back) (dash : x ≠ '-') (dot : x ≠ '.') :
    c.atSeparator = false := by
  rw [atSeparator, atMarker_of_ne text dash, atMarker_of_ne text dot]
  rfl

/-- A document marker stands at the start of its line. -/
theorem atSeparator_margin (inset : 0 < n) (text : c.rest = List.replicate n ' ' ++ back) :
    c.atSeparator = false := by
  obtain ⟨n, rfl⟩ := Nat.exists_eq_add_of_le' inset
  rw [List.replicate_succ] at text
  exact atSeparator_of_ne text (by decide) (by decide)

/-- A character that ends no line is no break. -/
theorem lineBreak_none (text : c.rest = x :: back) (visible : isBreak x = false) :
    c.lineBreak = (none, c) := by
  simp only [isBreak, Bool.or_eq_false_iff, beq_eq_false_iff_ne] at visible
  obtain ⟨⟨⟨⟨cr, lf⟩, nel⟩, ls⟩, ps⟩ := visible
  unfold lineBreak
  rw [text]
  split
  · rename_i same
    exact absurd (List.cons.inj same).1 cr
  · rename_i same
    obtain ⟨rfl, rfl⟩ := List.cons.inj same
    rw [if_neg (by simp [cr, lf, nel]), if_neg (by simp [ls, ps])]
  · contradiction

end Cursor

end LiveDoc.Yaml
