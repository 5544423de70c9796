import LiveDoc.Calendar.Iso
import LiveDoc.Calendar.Layout
import LiveDoc.Library.Timestamp
import LiveDoc.Proofs.CalendarFields
import LiveDoc.Proofs.NumberText

/-!
# Dates and their texts

Numbers with leading zeros are read back by every reader of digits, so a date comes back from each of
the layouts in which its fields can be written. No layout is taken for another one: the hyphens and
slashes stand where the readers that are tried before expect a digit or the other mark.
-/

namespace LiveDoc

open Text Calendar

/-! ## Numbers with leading zeros -/

/-- Whether characters write a number with as many digits as they are. -/
structure Spells (width n : Nat) (ds : List Char) : Prop where
  length : ds.length = width
  digit : ∀ c ∈ ds, isAsciiDigit c = true
  value : Nat.ofDigitChars 10 ds 0 = n

variable {width n y m k : Nat} {ds rest : List Char}

theorem toList_padded (width n : Nat) : (padded width n).toList =
    List.replicate (width - (Nat.toDigits 10 n).length) '0' ++ Nat.toDigits 10 n := by
  simp only [padded, Nat.toString_eq_ofList_toDigits, String.toList_append, String.toList_ofList,
    String.length_ofList]

/-- A number that fits is written with just as many digits as are asked for. -/
theorem spells_padded (some : 0 < width) (fits : n < 10 ^ width) :
    Spells width n (padded width n).toList := by
  have short : (Nat.toDigits 10 n).length ≤ width := Json.Reader.length_toDigits_le some fits
  rw [toList_padded]
  refine ⟨?_, fun c inside => ?_, ?_⟩
  · rw [List.length_append, List.length_replicate]
    omega
  · rcases List.mem_append.mp inside with zero | digit
    · exact Json.Reader.isAsciiDigit_of_mem_replicate zero
    · exact Decimal.isAsciiDigit_of_mem digit
  · rw [Nat.ofDigitChars_append, Nat.ofDigitChars_replicate_zero, Nat.mul_zero,
      Nat.ofDigitChars_ten_toDigits]

/-- The digits of a number are read as that number. -/
theorem Iso.number?_spelled (spells : Spells width n ds) : Iso.number? ds = some n := by
  have all : ds.all isAsciiDigit = true := List.all_eq_true.mpr spells.digit
  have value : ds.foldl (fun n c => n * 10 + (c.toNat - 48)) 0 = n := by
    rw [← spells.value, ← Json.Reader.natural_eq]
    exact (List.foldl_map).symm
  rw [number?, if_pos all, value]

/-- And up to their count, whatever follows. -/
theorem Iso.take?_spelled (spells : Spells width n ds) (rest : List Char) :
    Iso.take? width (ds ++ rest) = some (n, rest) := by
  have taken : (ds ++ rest).take width = ds := by
    rw [← spells.length]
    exact List.take_left
  have left : (ds ++ rest).drop width = rest := by
    rw [← spells.length]
    exact List.drop_left
  simp only [take?, taken, left, spells.length, if_true, number?_spelled spells, Option.map_some]

/-- Two digits stand in a row. -/
theorem Spells.two (spells : Spells 2 n ds) :
    ∃ a b, ds = [a, b] ∧ isAsciiDigit a = true ∧ isAsciiDigit b = true := by
  obtain ⟨a, b, rfl⟩ := List.length_eq_two.mp spells.length
  exact ⟨a, b, rfl, spells.digit a (by simp), spells.digit b (by simp)⟩

theorem Spells.four (spells : Spells 4 n ds) :
    ∃ a b c d, ds = [a, b, c, d] ∧ isAsciiDigit a = true ∧ isAsciiDigit b = true ∧
      isAsciiDigit c = true ∧ isAsciiDigit d = true := by
  obtain ⟨digit, length⟩ := And.intro spells.digit spells.length
  match ds, length with
  | [a, b, c, d], _ =>
    exact ⟨a, b, c, d, rfl, digit a (by simp), digit b (by simp), digit c (by simp),
      digit d (by simp)⟩

/-- A digit is none of the marks between fields. -/
theorem ne_of_digit {c mark : Char} (digit : isAsciiDigit c = true)
    (other : isAsciiDigit mark = false) : c ≠ mark := by
  rintro rfl
  rw [digit] at other
  contradiction

namespace DateLayout

/-! ## Fields in a layout -/

theorem digitValue?_digit {c : Char} (digit : isAsciiDigit c = true) :
    digitValue? c = some (c.toNat - 48) := by
  simp only [isAsciiDigit, Bool.and_eq_true, decide_eq_true_eq] at digit
  have small : c.toNat < 128 := Nat.lt_of_le_of_lt (show c.toNat ≤ 57 from digit.2) (by decide)
  rw [digitValue?, if_pos small, if_pos digit]

theorem years_spelled (spells : Spells 4 y ds) (rest : List Char) :
    years (ds ++ rest) = [(y, rest)] := by
  obtain ⟨a, b, c, d, rfl, first, second, third, fourth⟩ := spells.four
  have value := spells.value
  simp only [Nat.ofDigitChars_cons, Nat.ofDigitChars_nil] at value
  simp only [years, List.cons_append, List.nil_append, List.take_succ_cons, List.take_zero,
    List.mapM_cons, List.mapM_nil, digitValue?_digit, first, second, third, fourth]
  have same : ((((a.toNat - 48) * 10 + (b.toNat - 48)) * 10 + (c.toNat - 48)) * 10 +
      (d.toNat - 48)) = y := by
    rw [← value]
    change ((((a.toNat - 48) * 10 + (b.toNat - 48)) * 10 + (c.toNat - 48)) * 10 +
      (d.toNat - 48)) = 10 * (10 * (10 * (10 * 0 + (a.toNat - 48)) + (b.toNat - 48)) +
        (c.toNat - 48)) + (d.toNat - 48)
    omega
  simp [same]

/-- A month with two digits is what is read first. -/
theorem months_padded (some : 1 ≤ m) (most : m ≤ 12) (rest : List Char) :
    ∃ more, months ((padded 2 m).toList ++ rest) = (m, rest) :: more := by
  interval_cases m <;> exact ⟨_, rfl⟩

/-- So is a day. -/
theorem days_padded (some : 1 ≤ k) (most : k ≤ 31) (rest : List Char) :
    ∃ more, days ((padded 2 k).toList ++ rest) = (k, rest) :: more := by
  interval_cases k <;> exact ⟨_, rfl⟩

/-- What a month leaves of a text is the text without its first or its first two characters. -/
theorem rest_of_months {a b : Char} {r : Nat × List Char} (found : r ∈ months (a :: b :: rest)) :
    r.2 = rest ∨ r.2 = b :: rest := by
  unfold months at found
  split at found <;> rename_i same
  · obtain ⟨-, rfl, rfl⟩ := List.cons_eq_cons.mp same |>.imp id List.cons_eq_cons.mp
    rcases List.mem_append.mp found with two | one
    · split at two
      · exact .inl (List.mem_singleton.mp two ▸ rfl)
      · contradiction
    · exact .inr (List.mem_singleton.mp one ▸ rfl)
  · obtain ⟨-, rfl, rfl⟩ := List.cons_eq_cons.mp same |>.imp id List.cons_eq_cons.mp
    split at found
    · exact .inl (List.mem_singleton.mp found ▸ rfl)
    · contradiction
  · obtain ⟨-, rfl⟩ := List.cons_eq_cons.mp same
    split at found
    · exact .inr (List.mem_singleton.mp found ▸ rfl)
    · contradiction
  · contradiction

/-- A layout that begins with a month fits no text whose second and third characters are not the
mark behind the month. -/
theorem read?_month_none {a b mark : Char} {ps : List Piece} {f : Fields} (second : b ≠ mark)
    (third : rest.head? ≠ some mark) :
    read? (.month :: .mark mark :: ps) f (a :: b :: rest) = none := by
  rw [read?, List.findSome?_eq_none_iff]
  intro r found
  rcases rest_of_months found with left | left <;> rw [left]
  · cases rest with
    | nil => rfl
    | cons c rest => exact if_neg fun same => third (congrArg some same.symm)
  · exact if_neg (Ne.symm second)

/-! ## Writing -/

/-- The characters of a piece for the fields of a date. -/
def Piece.chars (y m k : Nat) : Piece → List Char
  | .year => (padded 4 y).toList
  | .month => (padded 2 m).toList
  | .day => (padded 2 k).toList
  | .mark c => [c]

/-- The fields that are known when a piece has been read. -/
def Piece.fill (y m k : Nat) (f : Fields) : Piece → Fields
  | .year => { f with year := y }
  | .month => { f with month := m }
  | .day => { f with day := k }
  | .mark _ => f

/-- The characters of a layout for the fields of a date. -/
def chars (layout : List Piece) (y m k : Nat) : List Char := layout.flatMap (Piece.chars y m k)

/-- The text of a date in a layout. -/
def write (layout : List Piece) (d : Date) : String :=
  String.ofList (chars layout d.year d.month d.day)

/-- The ISO layout, `YYYY-MM-DD`. -/
def iso : List Piece := [.year, .mark '-', .month, .mark '-', .day]

/-- The fields of a date, in their bounds. -/
structure Bounded (y m k : Nat) : Prop where
  year : 1 ≤ y ∧ y ≤ 9999
  month : 1 ≤ m ∧ m ≤ 12
  day : 1 ≤ k ∧ k ≤ 31

/-- A layout is read off its own text, whatever follows. -/
theorem read?_chars (bounded : Bounded y m k) (layout : List Piece) (f : Fields)
    (rest : List Char) :
    read? layout f (chars layout y m k ++ rest) =
      some (layout.foldl (Piece.fill y m k) f, rest) := by
  induction layout generalizing f with
  | nil => rfl
  | cons piece layout ih =>
    have split : chars (piece :: layout) y m k ++ rest =
        piece.chars y m k ++ (chars layout y m k ++ rest) := by
      simp only [chars, List.flatMap_cons, List.append_assoc]
    rw [split, List.foldl_cons, ← ih]
    cases piece with
    | mark c =>
      change (if c = c then _ else _) = _
      rw [if_pos rfl]
      rfl
    | year =>
      have fits : y < 10 ^ 4 := Nat.lt_of_le_of_lt bounded.year.2 (by decide)
      simp only [read?, Piece.chars, years_spelled (spells_padded (by decide) fits),
        List.findSome?_cons, List.findSome?_nil, Piece.fill]
      rw [ih]
    | month =>
      obtain ⟨more, first⟩ := months_padded bounded.month.1 bounded.month.2 (chars layout y m k ++ rest)
      simp only [read?, Piece.chars, first, List.findSome?_cons, Piece.fill]
      rw [ih]
    | day =>
      obtain ⟨more, first⟩ := days_padded bounded.day.1 bounded.day.2 (chars layout y m k ++ rest)
      simp only [read?, Piece.chars, first, List.findSome?_cons, Piece.fill]
      rw [ih]

/-- A layout that names all fields makes the date of its own text. -/
theorem date?_chars (bounded : Bounded y m k) (layout : List Piece)
    (complete : layout.foldl (Piece.fill y m k) {} = ⟨y, m, k⟩) :
    date? layout (chars layout y m k) = (Date.ofFields y m k).toOption := by
  have read := read?_chars bounded layout {} []
  rw [List.append_nil, complete] at read
  rw [date?, read]

theorem Bounded.spells (bounded : Bounded y m k) : Spells 4 y (padded 4 y).toList ∧
    Spells 2 m (padded 2 m).toList ∧ Spells 2 k (padded 2 k).toList := by
  obtain ⟨⟨-, year⟩, ⟨-, month⟩, ⟨-, day⟩⟩ := bounded
  exact ⟨spells_padded (by decide) (by omega), spells_padded (by decide) (by omega),
    spells_padded (by decide) (by omega)⟩

end DateLayout

/-! ## The ISO layout -/

namespace Iso

open DateLayout

/-- The ISO text of a date is read as the date. -/
theorem date?_chars (bounded : Bounded y m k) :
    date? (chars iso y m k) = (Date.ofFields y m k).toOption := by
  obtain ⟨year, month, day⟩ := bounded.spells
  have text : chars iso y m k =
      (padded 4 y).toList ++ '-' :: ((padded 2 m).toList ++ '-' :: (padded 2 k).toList) := by
    simp [chars, iso, Piece.chars]
  obtain ⟨e, f, same, digit, -⟩ := month.two
  have months := take?_spelled month ('-' :: (padded 2 k).toList)
  have days := take?_spelled day []
  rw [List.append_nil] at days
  rw [same] at months text
  rw [text, date?, take?_spelled year]
  simp only [bind, Option.bind, List.head?_cons, BEq.rfl, if_true, List.drop_succ_cons,
    List.drop_zero]
  split
  · rename_i week
    exact absurd (List.cons.inj week).1 (ne_of_digit digit rfl)
  · rw [months]
    simp [days]

/-- The date of a text with the ISO layout takes ten characters. -/
theorem dateLength_chars (bounded : Bounded y m k) (rest : List Char) :
    (chars iso y m k).length = 10 ∧ dateLength (chars iso y m k ++ rest) = 10 := by
  obtain ⟨year, month, day⟩ := bounded.spells
  obtain ⟨a, b, c, d, years, -⟩ := year.four
  obtain ⟨e, f, months, digit, -⟩ := month.two
  obtain ⟨g, h, days, -⟩ := day.two
  have text : chars iso y m k = [a, b, c, d, '-', e, f, '-', g, h] := by
    simp [chars, iso, Piece.chars, years, months, days]
  have week : e ≠ 'W' := ne_of_digit digit rfl
  rw [text]
  exact ⟨rfl, by simp [dateLength, week]⟩

theorem seven_le_dateLength (cs : List Char) : 7 ≤ dateLength cs := by
  unfold dateLength
  dsimp only
  split
  · omega
  · split
    · split
      · split
        · split <;> omega
        · omega
      · omega
    · split
      · split
        · omega
        · split <;> omega
      · omega

/-- No number is read where a mark stands among its digits. -/
theorem take?_none {count : Nat} {cs : List Char} {c : Char} (inside : c ∈ cs.take count)
    (mark : isAsciiDigit c = false) : take? count cs = none := by
  have mixed : (cs.take count).all isAsciiDigit = false :=
    List.all_eq_false.mpr ⟨c, inside, by simp [mark]⟩
  simp [take?, number?, mixed]

/-- No date is read where a mark stands within the year. -/
theorem date?_none_of_mark {a b c : Char} (mark : isAsciiDigit c = false) {size : Nat}
    (large : 7 ≤ size) : date? ((a :: b :: c :: rest).take size) = none := by
  have unread : take? 4 ((a :: b :: c :: rest).take size) = none := by
    refine take?_none (c := c) ?_ mark
    rw [List.take_take, Nat.min_eq_left (by omega)]
    simp
  rw [date?, unread]
  rfl

/-- No date is read where a slash stands behind the year. -/
theorem date?_none_of_slash (spells : Spells 4 y ds) (rest : List Char) :
    date? (ds ++ '/' :: rest) = none := by
  have unread : take? 2 ('/' :: rest) = none := take?_none (c := '/') (by simp) rfl
  rw [date?, take?_spelled spells]
  simp [unread]

end Iso

theorem Moment.ofIso?_none {s : String}
    (unread : Iso.date? (s.toList.take (Iso.dateLength s.toList)) = none) :
    Moment.ofIso? s = none := by
  unfold ofIso?
  simp only [unread, bind, Option.bind, ite_self]

/-- A text that no reader of ISO moments takes is read in the first layout that fits it. -/
theorem Moment.ofText_of_layout {s : String} {d : Date}
    (unread : Iso.date? (s.toList.take (Iso.dateLength s.toList)) = none)
    (found : DateLayout.layouts.findSome? (fun l => DateLayout.date? l s.toList) = some d) :
    Moment.ofText s = .ok (Moment.midnight d) := by
  simp only [ofText, ofIso?_none unread, ofLayouts?, found, Option.map_some]

namespace DateLayout

theorem date?_none {layout : List Piece} {cs : List Char} (misfit : read? layout {} cs = none) :
    date? layout cs = none := by
  rw [date?, misfit]

/-- The text of a date in a layout that begins with the month. -/
theorem exists_monthFirst (bounded : Bounded y m k) (c : Char) (layout : List Piece) :
    ∃ a b, isAsciiDigit b = true ∧
      chars (.month :: .mark c :: layout) y m k = a :: b :: c :: chars layout y m k := by
  obtain ⟨-, month, -⟩ := bounded.spells
  obtain ⟨a, b, digits, -, digit⟩ := month.two
  exact ⟨a, b, digit, by simp [chars, Piece.chars, digits]⟩

/-- The text of a date in a layout that begins with the year. -/
theorem exists_yearFirst (bounded : Bounded y m k) (c : Char) (layout : List Piece) :
    ∃ a b e f, Spells 4 y [a, b, e, f] ∧ isAsciiDigit b = true ∧ isAsciiDigit e = true ∧
      chars (.year :: .mark c :: layout) y m k = a :: b :: e :: f :: c :: chars layout y m k := by
  obtain ⟨year, -⟩ := bounded.spells
  obtain ⟨a, b, e, f, digits, -, second, third, -⟩ := year.four
  exact ⟨a, b, e, f, digits ▸ year, second, third, by simp [chars, Piece.chars, digits]⟩

end DateLayout

namespace Moment

open DateLayout

variable {s : String} {d : Date}

/-- A day at the time that a text writes behind it and one character more; without such a text it is
midnight. -/
def atTime? (d : Date) : List Char → Option Moment
  | [] => some (midnight d)
  | _ :: cs => do
    let (c, zone) ← Iso.time? cs
    let time ← (ClockTime.ofFields c.hour c.minute c.second c.micro zone).toOption
    pure (ofDateTime d time)

/-- What follows a date in the ISO layout is its time. -/
theorem ofIso?_of_date (bounded : Bounded y m k) (fields : Date.ofFields y m k = .ok d)
    (text : s.toList = chars DateLayout.iso y m k ++ rest) :
    ofIso? s = atTime? d rest := by
  obtain ⟨length, size⟩ := Iso.dateLength_chars bounded rest
  have long : ¬ s.toList.length < 7 := by
    rw [text, List.length_append]
    omega
  have taken : s.toList.take 10 = chars DateLayout.iso y m k := by
    rw [text, ← length]
    exact List.take_left
  have left : s.toList.drop 10 = rest := by
    rw [text, ← length]
    exact List.drop_left
  unfold ofIso?
  simp only [long, if_false]
  rw [text, size, ← text, taken, left, Iso.date?_chars bounded, fields]
  cases rest <;> rfl

theorem ofText_iso (bounded : Bounded y m k) (fields : Date.ofFields y m k = .ok d)
    (text : s.toList = chars DateLayout.iso y m k) : ofText s = .ok (midnight d) := by
  rw [← List.append_nil (chars DateLayout.iso y m k)] at text
  rw [ofText, ofIso?_of_date bounded fields text]
  rfl

/-- A date in hyphens with the month first is no ISO date. -/
theorem ofText_hyphens (bounded : Bounded y m k) (fields : Date.ofFields y m k = .ok d)
    (text : s.toList = chars [.month, .mark '-', .day, .mark '-', .year] y m k) :
    ofText s = .ok (midnight d) := by
  have own := DateLayout.date?_chars bounded [.month, .mark '-', .day, .mark '-', .year] rfl
  rw [fields] at own
  obtain ⟨a, b, -, shape⟩ := exists_monthFirst bounded '-' [.day, .mark '-', .year]
  refine ofText_of_layout ?_ ?_
  · rw [text, shape]
    exact Iso.date?_none_of_mark rfl (Iso.seven_le_dateLength _)
  · rw [text]
    simp only [layouts, List.findSome?_cons, own, Except.toOption]

/-- A date in slashes with the month first is none in hyphens. -/
theorem ofText_slashes (bounded : Bounded y m k) (fields : Date.ofFields y m k = .ok d)
    (text : s.toList = chars [.month, .mark '/', .day, .mark '/', .year] y m k) :
    ofText s = .ok (midnight d) := by
  have own := DateLayout.date?_chars bounded [.month, .mark '/', .day, .mark '/', .year] rfl
  rw [fields] at own
  obtain ⟨a, b, digit, shape⟩ := exists_monthFirst bounded '/' [.day, .mark '/', .year]
  have hyphens : date? [.month, .mark '-', .day, .mark '-', .year] s.toList = none := by
    refine date?_none ?_
    rw [text, shape]
    exact read?_month_none (ne_of_digit digit rfl) (by simp)
  refine ofText_of_layout ?_ ?_
  · rw [text, shape]
    exact Iso.date?_none_of_mark rfl (Iso.seven_le_dateLength _)
  · rw [text] at hyphens ⊢
    simp only [layouts, List.findSome?_cons, hyphens, own, Except.toOption]

/-- A date in slashes with the year first is no ISO date, and none with the month first: no month has
four digits. -/
theorem ofText_yearFirst (bounded : Bounded y m k) (fields : Date.ofFields y m k = .ok d)
    (text : s.toList = chars [.year, .mark '/', .month, .mark '/', .day] y m k) :
    ofText s = .ok (midnight d) := by
  have own := DateLayout.date?_chars bounded [.year, .mark '/', .month, .mark '/', .day] rfl
  rw [fields] at own
  obtain ⟨a, b, e, f, year, second, third, shape⟩ :=
    exists_yearFirst bounded '/' [.month, .mark '/', .day]
  have monthFirst (mark : Char) (other : isAsciiDigit mark = false) (ps : List Piece) :
      date? (.month :: .mark mark :: ps) s.toList = none := by
    refine date?_none ?_
    rw [text, shape]
    exact read?_month_none (ne_of_digit second other)
      fun same => ne_of_digit third other (Option.some.inj same)
  refine ofText_of_layout ?_ ?_
  · have size : Iso.dateLength s.toList = 8 := by
      have month : (padded 2 m).toList.length = 2 := bounded.spells.2.1.length
      have day : (padded 2 k).toList.length = 2 := bounded.spells.2.2.length
      rw [text, shape]
      simp [Iso.dateLength, chars, Piece.chars]
      omega
    rw [size, text, shape]
    exact Iso.date?_none_of_slash year _
  · have hyphens := monthFirst '-' rfl [.day, .mark '-', .year]
    have slashes := monthFirst '/' rfl [.day, .mark '/', .year]
    rw [text] at hyphens slashes ⊢
    simp only [layouts, List.findSome?_cons, hyphens, slashes, own, Except.toOption]

/-- The usual text of a date is that in the ISO layout. -/
theorem toList_date (d : Date) :
    d.text.toList = chars DateLayout.iso d.year d.month d.day := by
  have fields (y m k : Nat) :
      (padded 4 y ++ "-" ++ padded 2 m ++ "-" ++ padded 2 k).toList = chars DateLayout.iso y m k := by
    simp [chars, DateLayout.iso, Piece.chars]
  exact fields d.year d.month d.day

/-- A date comes back from each of its texts. -/
theorem ofText_write (d : Date) :
    ∀ layout ∈ DateLayout.iso :: layouts, ofText (write layout d) = .ok (midnight d) := by
  obtain ⟨month, ⟨low, high⟩, -⟩ := d.monthDay_spec
  have bounded : Bounded d.year d.month d.day := ⟨d.year_bounds, month, d.day_bounds⟩
  have fields := d.ofFields_fields
  intro layout known
  have text : (write layout d).toList = chars layout d.year d.month d.day := String.toList_ofList
  simp only [layouts, List.mem_cons, List.not_mem_nil, or_false] at known
  rcases known with rfl | rfl | rfl | rfl
  · exact ofText_iso bounded fields text
  · exact ofText_hyphens bounded fields text
  · exact ofText_slashes bounded fields text
  · exact ofText_yearFirst bounded fields text

end Moment

end LiveDoc
