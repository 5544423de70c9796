import LiveDoc.Proofs.DateText
import LiveDoc.Proofs.LibraryDates

/-!
# Moments and their texts

A moment comes back from its ISO text, and with an offset it comes back as what the clock shows in
UTC. Only an offset of less than a second is lost: its text stands for UTC.
-/

namespace LiveDoc

open Text Calendar

variable {n : Nat} {ds : List Char}

namespace Iso

variable (more : Bool) (left : Nat) {i : Nat} {c : Clock}

/-! ## Fields of a clock -/

/-- A field before a colon. -/
theorem fields?_colon (spells : Spells 2 n ds) (x : Char) (after : List Char) :
    fields? more (left + 1) i true c (ds ++ ':' :: x :: after) =
      fields? more left (i + 1) true (c.set i n) (x :: after) := by
  rw [fields?, take?_spelled spells]
  simp

/-- The last field. -/
theorem fields?_end (spells : Spells 2 n ds) (colons : Bool) :
    fields? more (left + 1) i colons c ds = some (c.set i n, more) := by
  have read := take?_spelled spells []
  rw [List.append_nil] at read
  rw [fields?, read]

/-- A field before a fraction. -/
theorem fields?_point (spells : Spells 2 n ds) (later : i ≠ 0) (x : Char) (after : List Char) :
    fields? more (left + 1) i true c (ds ++ '.' :: x :: after) =
      fraction? (c.set i n) more (x :: after) := by
  rw [fields?, take?_spelled spells]
  simp [later]

/-- A fraction of six digits is a number of microseconds. -/
theorem fraction?_spelled (spells : Spells 6 n ds) :
    fraction? c more ds = some ({ c with micro := n }, more) := by
  have all : ds.take 6 = ds := List.take_of_length_le spells.length.le
  have none : ds.drop 6 = [] := List.drop_of_length_le spells.length.le
  simp [fraction?, all, none, number?_spelled spells, spells.length]

/-! ## Clocks -/

/-- Hours and minutes in a row. -/
def minuteChars (h m : Nat) : List Char := (padded 2 h).toList ++ ':' :: (padded 2 m).toList

/-- Seconds behind the minutes, and microseconds if there are any. -/
def secondChars (s u : Nat) : List Char :=
  ':' :: ((padded 2 s).toList ++ if u = 0 then [] else '.' :: (padded 6 u).toList)

/-- The fields of a clock that can be written. -/
structure Timed (h m s u : Nat) : Prop where
  hour : h < 100
  minute : m < 100
  second : s < 100
  micro : u < 1000000

variable {h m s u : Nat}

theorem spells_two (small : n < 100) : Spells 2 n (padded 2 n).toList :=
  spells_padded (by decide) small

/-- A clock is read off its hours and minutes. -/
theorem clock?_minuteChars (timed : Timed h m s u) :
    clock? more (minuteChars h m) = some (⟨h, m, 0, 0⟩, more) := by
  obtain ⟨x, y, digits, -⟩ := (spells_two timed.minute).two
  have last := fields?_end more 1 (i := 1) (c := ({} : Clock).set 0 h) (spells_two timed.minute) true
  rw [clock?, minuteChars]
  rw [digits] at last ⊢
  rw [fields?_colon more 2 (spells_two timed.hour), last]
  rfl

/-- And off its seconds and microseconds, which are told apart by a point. -/
theorem clock?_secondChars (timed : Timed h m s u) :
    clock? more (minuteChars h m ++ secondChars s u) = some (⟨h, m, s, u⟩, more) := by
  obtain ⟨x, y, digits, -⟩ := (spells_two timed.minute).two
  obtain ⟨p, q, seconds, -⟩ := (spells_two timed.second).two
  have hours := fields?_colon more 2 (i := 0) (c := {}) (spells_two timed.hour) x
    (y :: secondChars s u)
  have minutes := fields?_colon more 1 (i := 1) (c := ({} : Clock).set 0 h)
    (spells_two timed.minute) p (q :: if u = 0 then [] else '.' :: (padded 6 u).toList)
  have front : minuteChars h m ++ secondChars s u =
      (padded 2 h).toList ++ ':' :: x :: y :: secondChars s u := by
    simp [minuteChars, digits]
  rw [clock?, front, hours]
  rw [digits] at minutes
  simp only [secondChars, seconds, List.cons_append, List.nil_append] at minutes ⊢
  rw [minutes]
  by_cases whole : u = 0
  · have last := fields?_end more 0 (i := 2) (c := (({} : Clock).set 0 h).set 1 m)
      (spells_two timed.second) true
    rw [seconds] at last
    rw [if_pos whole, last, whole]
    rfl
  · have six : Spells 6 u (padded 6 u).toList := spells_padded (by decide) timed.micro
    obtain ⟨d, rest, micros⟩ := List.exists_cons_of_ne_nil
      (List.ne_nil_of_length_pos (six.length ▸ (by decide : 0 < 6)))
    have point := fields?_point more 0 (i := 2) (c := (({} : Clock).set 0 h).set 1 m)
      (spells_two timed.second) (by decide) d rest
    rw [← micros, seconds] at point
    rw [if_neg whole]
    exact point.trans (fraction?_spelled more six)

/-! ## Offsets -/

theorem startsOffset_digit {x : Char} (digit : isAsciiDigit x = true) : startsOffset x = false := by
  have plus : x ≠ '+' := ne_of_digit digit rfl
  have minus : x ≠ '-' := ne_of_digit digit rfl
  have utc : x ≠ 'Z' := ne_of_digit digit rfl
  simp [startsOffset, plus, minus, utc]

/-- The clock of a time holds no sign. -/
theorem startsOffset_clock (timed : Timed h m s u) :
    ∀ x ∈ minuteChars h m ++ secondChars s u, startsOffset x = false := by
  have digits {width k : Nat} (some : 0 < width) (fits : k < 10 ^ width) {x : Char}
      (inside : x ∈ (padded width k).toList) : startsOffset x = false :=
    startsOffset_digit ((spells_padded some fits).digit x inside)
  intro x inside
  simp only [minuteChars, secondChars, List.mem_append, List.mem_cons] at inside
  rcases inside with (hour | rfl | minute) | rfl | second | fraction
  · exact digits (by decide) timed.hour hour
  · rfl
  · exact digits (by decide) timed.minute minute
  · rfl
  · exact digits (by decide) timed.second second
  · split at fraction
    · contradiction
    · rcases List.mem_cons.mp fraction with rfl | micro
      · rfl
      · exact digits (by decide) timed.micro micro

/-- A time without sign is a clock. -/
theorem time?_plain {cs : List Char} (plain : ∀ x ∈ cs, startsOffset x = false)
    (read : clock? false cs = some (c, false)) : time? cs = some (c, none) := by
  have all : ∀ x ∈ cs, (!startsOffset x) = true := by simpa using plain
  have none : cs.dropWhile (!startsOffset ·) = [] := by
    rw [← List.append_nil cs, List.dropWhile_append_of_pos all, List.dropWhile_nil]
  have self : cs.takeWhile (!startsOffset ·) = cs := by
    rw [← List.append_nil cs, List.takeWhile_append_of_pos all, List.takeWhile_nil]
  rw [time?, none, self, read]
  rfl

/-- A time with a sign is a clock and an offset. -/
theorem time?_signed {cs offset : List Char} {mark : Char} {o : Clock} {surplus : Bool}
    (plain : ∀ x ∈ cs, startsOffset x = false) (sign : startsOffset mark = true) (not_utc : mark ≠ 'Z')
    (read : clock? true cs = some (c, surplus)) (behind : clock? false offset = some (o, false)) :
    time? (cs ++ mark :: offset) = (zone? (mark == '-') o).map fun z => (c, some z) := by
  have all : ∀ x ∈ cs, (!startsOffset x) = true := by simpa using plain
  have stop : ¬ (!startsOffset mark) = true := by simp [sign]
  rw [time?, List.dropWhile_append_of_pos all, List.takeWhile_append_of_pos all,
    List.dropWhile_cons_of_neg (p := (!startsOffset ·)) stop,
    List.takeWhile_cons_of_neg (p := (!startsOffset ·)) stop, List.append_nil, read]
  simp only [bind, Option.bind, if_neg not_utc, behind]
  cases zone? (mark == '-') o <;> rfl

end Iso

namespace Zone

/-- Whether an offset is less than a day either way. -/
def IsProper (z : Zone) : Prop :=
  -(Calendar.microsPerDay : Int) < z.offset ∧ z.offset < Calendar.microsPerDay

/-- Whether an offset is told apart from UTC by its text: it is none at all, or at least a second. -/
def IsRead (z : Zone) : Prop := z.offset = 0 ∨ (Calendar.microsPerSecond : Int) ≤ |z.offset|

instance (z : Zone) : Decidable z.IsProper := inferInstanceAs (Decidable (_ ∧ _))

instance (z : Zone) : Decidable z.IsRead := inferInstanceAs (Decidable (_ ∨ _))

/-- The offset that the text of an offset is read as. -/
def asRead (z : Zone) : Zone := if z.offset.natAbs < Calendar.microsPerSecond then utc else z

variable {z : Zone}

theorem asRead_offset : z.asRead.offset = z.offset ↔ z.IsRead := by
  unfold asRead IsRead
  rw [Int.abs_eq_natAbs]
  split
  · simp only [utc]
    omega
  · exact iff_of_true rfl (.inr (by omega))

theorem ofOffset_proper (proper : z.IsProper) : ofOffset z.offset = .ok z := by
  obtain ⟨low, high⟩ := proper
  rw [ofOffset, if_neg (by omega)]

/-- The clock of an offset: its absolute value, in fields. -/
def clock (z : Zone) : Iso.Clock :=
  let n := z.offset.natAbs
  ⟨n / 1000000 / 3600, n / 1000000 / 60 % 60, n / 1000000 % 60, n % 1000000⟩

/-- The characters of the clock of an offset. -/
def clockChars (z : Zone) : List Char :=
  Iso.minuteChars z.clock.hour z.clock.minute ++
    if z.clock.second = 0 ∧ z.clock.micro = 0 then []
    else Iso.secondChars z.clock.second z.clock.micro

/-- The sign of an offset. -/
def sign (z : Zone) : Char := if z.offset < 0 then '-' else '+'

theorem toList_text (z : Zone) : z.text.toList = z.sign :: z.clockChars := by
  have shape (n h m s u : Nat) (negative : Prop) [Decidable negative] :
      ((if negative then "-" else "+") ++ Calendar.padded 2 h ++ ":" ++ Calendar.padded 2 m ++
        (if s = 0 ∧ u = 0 then "" else ":" ++ Calendar.padded 2 s) ++
        (if u = 0 then "" else "." ++ Calendar.padded 6 u)).toList =
      (if negative then '-' else '+') :: (Iso.minuteChars h m ++
        if s = 0 ∧ u = 0 then [] else Iso.secondChars s u) := by
    split <;> split <;> split <;> simp_all [Iso.minuteChars, Iso.secondChars]
  exact shape z.offset.natAbs _ _ _ _ _

theorem timed_clock (proper : z.IsProper) :
    Iso.Timed z.clock.hour z.clock.minute z.clock.second z.clock.micro := by
  obtain ⟨low, high⟩ := proper
  simp only [Calendar.microsPerDay] at low high
  simp only [clock]
  exact ⟨by omega, by omega, by omega, by omega⟩

/-- The clock of an offset is read off its text. -/
theorem clock?_clockChars (proper : z.IsProper) :
    Iso.clock? false z.clockChars = some (z.clock, false) := by
  have timed := timed_clock proper
  unfold clockChars
  split
  · rename_i whole
    have same : (⟨z.clock.hour, z.clock.minute, 0, 0⟩ : Iso.Clock) =
        ⟨z.clock.hour, z.clock.minute, z.clock.second, z.clock.micro⟩ := by rw [whole.1, whole.2]
    rw [List.append_nil, Iso.clock?_minuteChars false timed, same]
  · exact Iso.clock?_secondChars false timed

/-- The clock of an offset stands for the offset, or for UTC. -/
theorem zone?_clock (proper : z.IsProper) :
    Iso.zone? (z.sign == '-') z.clock = some z.asRead := by
  have negative : (z.sign == '-') = decide (z.offset < 0) := by
    unfold sign
    split <;> simp_all
  have seconds (n : Nat) :
      (n / 1000000 / 3600 * 60 + n / 1000000 / 60 % 60) * 60 + n / 1000000 % 60 = n / 1000000 := by
    omega
  have absolute (n : Nat) : ((n / 1000000 : Nat) : Int) * 1000000 + (n % 1000000 : Nat) = n := by
    omega
  have signed : (if decide (z.offset < 0) = true then -(z.offset.natAbs : Int)
      else z.offset.natAbs) = z.offset := by
    by_cases below : z.offset < 0
    · rw [decide_eq_true below, if_pos rfl]
      omega
    · rw [decide_eq_false below, if_neg nofun]
      omega
  rw [negative]
  simp only [Iso.zone?, clock, seconds, absolute, signed, ofOffset_proper proper, Except.toOption]
  unfold asRead
  by_cases short : z.offset.natAbs < 1000000
  · rw [if_pos (Nat.div_eq_of_lt short)]
    exact (congrArg some (if_pos short)).symm
  · rw [if_neg (by omega)]
    exact (congrArg some (if_neg short)).symm

end Zone

/-! ## Times of day -/

namespace ClockTime

theorem timed (t : ClockTime) : Iso.Timed t.hour t.minute t.second t.microsecond := by
  have short := t.inRange
  simp only [Calendar.microsPerDay] at short
  simp only [hour, minute, second, microsecond]
  exact ⟨by omega, by omega, by omega, by omega⟩

theorem toList_text (t : ClockTime) : t.text.toList =
    Iso.minuteChars t.hour t.minute ++ Iso.secondChars t.second t.microsecond ++
      (t.zone.elim "" Zone.text).toList := by
  have shape (h m s u : Nat) (offset : String) :
      (Calendar.padded 2 h ++ ":" ++ Calendar.padded 2 m ++ ":" ++ Calendar.padded 2 s ++
        (if u = 0 then "" else "." ++ Calendar.padded 6 u) ++ offset).toList =
      Iso.minuteChars h m ++ Iso.secondChars s u ++ offset.toList := by
    split <;> simp_all [Iso.minuteChars, Iso.secondChars]
  rw [← shape, text]
  cases t.zone <;> rfl

/-- A time of day is read off its text, up to what is not read of the offset. -/
theorem time?_text {t : ClockTime} (proper : ∀ z ∈ t.zone, z.IsProper) :
    Iso.time? t.text.toList =
      some (⟨t.hour, t.minute, t.second, t.microsecond⟩, t.zone.map Zone.asRead) := by
  have plain := Iso.startsOffset_clock t.timed
  rw [toList_text]
  cases zone : t.zone with
  | none =>
    rw [Option.elim_none, String.toList_empty, List.append_nil]
    exact Iso.time?_plain plain (Iso.clock?_secondChars false t.timed)
  | some z =>
    have proper : z.IsProper := proper z zone
    have sign : Iso.startsOffset z.sign = true ∧ z.sign ≠ 'Z' := by
      unfold Zone.sign
      split <;> exact ⟨rfl, by decide⟩
    rw [Option.elim_some, z.toList_text,
      Iso.time?_signed plain sign.1 sign.2 (Iso.clock?_secondChars true t.timed)
        (Zone.clock?_clockChars proper), Zone.zone?_clock proper]
    rfl

end ClockTime

/-! ## Moments -/

namespace Moment

variable {m r u now : Moment}

/-- Whether an offset, if there is one, is less than a day either way. -/
def IsProper (m : Moment) : Prop := ∀ z ∈ m.zone, z.IsProper

/-- Whether the offset, if there is one, is told apart from UTC by its text. -/
def IsRead (m : Moment) : Prop := ∀ z ∈ m.zone, z.IsRead

/-- The moment that the text of a moment is read as. -/
def asRead (m : Moment) : Moment := { m with zone := m.zone.map Zone.asRead }

/-- The ISO text of a moment is read as the moment, up to what is not read of the offset. -/
theorem ofIso?_text (proper : m.IsProper) : ofIso? m.text = some m.asRead := by
  have bounded : DateLayout.Bounded m.date.year m.date.month m.date.day :=
    ⟨m.date.year_bounds, m.date.monthDay_spec.1, m.date.day_bounds⟩
  have text : m.text.toList =
      DateLayout.chars DateLayout.iso m.date.year m.date.month m.date.day ++
        'T' :: m.time.text.toList := by
    rw [← toList_date]
    simp [Moment.text, textWith]
  have time : Iso.time? m.time.text.toList =
      some (⟨m.time.hour, m.time.minute, m.time.second, m.time.microsecond⟩, m.asRead.zone) :=
    ClockTime.time?_text proper
  have fields : ClockTime.ofFields m.time.hour m.time.minute m.time.second m.time.microsecond
      m.asRead.zone = .ok m.asRead.time := m.asRead.time.ofFields_fields
  have whole : ofDateTime m.date m.asRead.time = m.asRead := m.asRead.ofDateTime_date_time
  rw [ofIso?_of_date bounded m.date.ofFields_fields text]
  simp only [atTime?, time, bind, Option.bind, fields, Except.toOption, whole]
  rfl

/-- The moment in UTC is the one at the instant. -/
theorem naiveUtc?_eq (m : Moment) : m.naiveUtc? = ofClock? m.instant none := by
  cases zone : m.zone with
  | some z => simp only [naiveUtc?, zone]
  | none =>
    have clock : m.instant = m.clock := by
      simp only [instant, zone]
      omega
    simp only [naiveUtc?, zone]
    exact (ofClock?_eq_some.mpr ⟨clock, zone.symm⟩).symm

/-- Reading the text keeps the instant exactly if the offset is told apart from UTC. -/
theorem instant_asRead : m.asRead.instant = m.instant ↔ m.IsRead := by
  simp only [instant, asRead, IsRead]
  cases m.zone with
  | none => simp
  | some z =>
    simp only [Option.map_some, Option.mem_some_iff, forall_eq', ← Zone.asRead_offset]
    omega

theorem instant_of_not_isRead (lost : ¬ m.IsRead) : m.asRead.instant = m.clock := by
  simp only [IsRead, not_forall] at lost
  obtain ⟨z, known, short⟩ := lost
  have zone : m.zone = some z := known
  rw [← Zone.asRead_offset] at short
  unfold Zone.asRead at short
  split at short
  · rename_i small
    simp only [instant, asRead, zone, Option.map_some, Zone.asRead, if_pos small, Zone.utc]
    omega
  · exact absurd rfl short

/-- The moment in UTC at an instant. -/
def atInstant (n : Int) : Except Fault Moment :=
  match ofClock? n none with
  | some u => .ok u
  | none => .error .dateOutOfRange

theorem atInstant_eq_ok {n : Int} : atInstant n = .ok u ↔ n = u.clock ∧ none = u.zone := by
  rw [← ofClock?_eq_some, atInstant]
  cases ofClock? n none <;> simp

/-- The text of a moment stands for the moment in UTC at the instant that is read. -/
theorem ofText_text (proper : m.IsProper) : ofText m.text = atInstant m.asRead.instant := by
  rw [ofText, ofIso?_text proper]
  dsimp only
  rw [naive, naiveUtc?_eq]
  rfl

/-- The moment in UTC comes of the text of a moment exactly if its offset is told apart from UTC. -/
theorem ofText_text_iff (proper : m.IsProper) (utc : m.naiveUtc? = some u) :
    ofText m.text = .ok u ↔ m.IsRead := by
  rw [naiveUtc?_eq] at utc
  obtain ⟨clock, zone⟩ := ofClock?_eq_some.mp utc
  rw [ofText_text proper, atInstant_eq_ok, and_iff_left zone, ← clock, instant_asRead]

theorem ofText_text_of_zone (naive : m.zone = none) : ofText m.text = .ok m := by
  have none : ∀ z, z ∉ m.zone := by simp [naive]
  have utc : m.naiveUtc? = some m := by simp only [naiveUtc?, naive]
  exact (ofText_text_iff (fun z known => absurd known (none z)) utc).mpr
    fun z known => absurd known (none z)

/-- Two texts for one instant stand for the same, if the offset of each is told apart from UTC, and
not if that of one alone is. -/
theorem ofText_text_eq_iff (left : m.IsProper) (right : r.IsProper) (read : m.IsRead)
    (same : m.instant = r.instant) : ofText m.text = ofText r.text ↔ r.IsRead := by
  rw [ofText_text left, ofText_text right, instant_asRead.mpr read, same]
  constructor
  · intro equal
    by_contra lost
    -- read as UTC, the clock of the other text is within the calendar, and shows another instant
    have wall : atInstant r.asRead.instant = .ok ⟨r.clock, none, r.inRange⟩ :=
      atInstant_eq_ok.mpr ⟨instant_of_not_isRead lost, rfl⟩
    have utc : r.instant = r.clock := (atInstant_eq_ok.mp (equal.trans wall)).1
    exact lost (instant_asRead.mp ((instant_of_not_isRead lost).trans utc.symm))
  · intro read
    rw [instant_asRead.mpr read]

end Moment

namespace StandardName

open DateLayout

/-- A moment without offset comes back from its ISO text, and a date from each of its texts. One with
an offset comes back as the moment in UTC, so that the texts of one instant stand for the same, except
where the offset is not zero and less than a second. -/
theorem date_text (now : Moment) :
    (∀ m : Moment, m.zone = none → apply now .date [.text m.text] = .ok (.moment m)) ∧
      (∀ m u : Moment, m.IsProper → m.naiveUtc? = some u →
        (apply now .date [.text m.text] = .ok (.moment u) ↔ m.IsRead)) ∧
      (∀ m r : Moment, m.IsProper → r.IsProper → m.IsRead → m.instant = r.instant →
        (apply now .date [.text m.text] = apply now .date [.text r.text] ↔ r.IsRead)) ∧
      ∀ d, ∀ layout ∈ iso :: layouts,
        apply now .date [.text (write layout d)] = .ok (.moment (Moment.midnight d)) := by
  have read (s : String) : apply now .date [.text s] = (Moment.ofText s).map .moment := apply_date now _
  have injective {a b : Except Fault Moment} : a.map Value.moment = b.map .moment ↔ a = b := by
    cases a <;> cases b <;> simp [Except.map]
  have found (s : String) (u : Moment) :
      apply now .date [.text s] = .ok (.moment u) ↔ Moment.ofText s = .ok u := by
    rw [read]
    exact injective (b := .ok u)
  refine ⟨fun m naive => ?_, fun m u proper utc => ?_, fun m r left right known same => ?_,
    fun d layout known => ?_⟩
  · exact (found _ _).mpr (Moment.ofText_text_of_zone naive)
  · rw [found, Moment.ofText_text_iff proper utc]
  · rw [read, read, injective, Moment.ofText_text_eq_iff left right known same]
  · exact (found _ _).mpr (Moment.ofText_write d layout known)

/-- The start of 2024, and the same instant two hours ahead of UTC and half an hour behind. -/
theorem offsets_areRead :
    let utc : Moment := ⟨738885 * 86400000000, none, by decide⟩
    let ahead : Moment := ⟨738885 * 86400000000 + 7200000000, some ⟨7200000000⟩, by decide⟩
    let behind : Moment := ⟨738885 * 86400000000 - 1800000000, some ⟨-1800000000⟩, by decide⟩
    utc.zone = none ∧ ahead.IsProper ∧ behind.IsProper ∧ ahead.IsRead ∧ behind.IsRead ∧
      ahead.naiveUtc? = some utc ∧ ahead.instant = behind.instant ∧
      apply default .date [.text utc.text] = .ok (.moment utc) ∧
      apply default .date [.text ahead.text] = .ok (.moment utc) ∧
      apply default .date [.text ahead.text] = apply default .date [.text behind.text] := by
  intro utc ahead behind
  have proper : ahead.IsProper ∧ behind.IsProper :=
    ⟨by rintro z ⟨⟩; decide, by rintro z ⟨⟩; decide⟩
  have read : ahead.IsRead ∧ behind.IsRead := ⟨by rintro z ⟨⟩; decide, by rintro z ⟨⟩; decide⟩
  have moved : ahead.naiveUtc? = some utc := Moment.ofClock?_eq_some.mpr ⟨by decide, rfl⟩
  have same : ahead.instant = behind.instant := by decide
  obtain ⟨naive, offset, texts, -⟩ := date_text default
  exact ⟨rfl, proper.1, proper.2, read.1, read.2, moved, same, naive utc rfl,
    (offset ahead utc proper.1 moved).mpr read.1,
    (texts ahead behind proper.1 proper.2 read.1 same).mpr read.2⟩

/-- The start of 2024 half a second ahead of UTC is half a second earlier in UTC, but its text stands
for the start of 2024 in UTC. -/
theorem halfSecond_isLost :
    let ahead : Moment := ⟨738885 * 86400000000, some ⟨500000⟩, by decide⟩
    let utc : Moment := ⟨738885 * 86400000000 - 500000, none, by decide⟩
    let start : Moment := ⟨738885 * 86400000000, none, by decide⟩
    ahead.text = "2024-01-01T00:00:00+00:00:00.500000" ∧ ahead.naiveUtc? = some utc ∧
      apply default .date [.text ahead.text] = .ok (.moment start) := by
  intro ahead utc start
  have text : ahead.text = "2024-01-01T00:00:00+00:00:00.500000" := by decide +kernel
  have moved : ahead.naiveUtc? = some utc := Moment.ofClock?_eq_some.mpr ⟨by decide, rfl⟩
  have proper : ahead.IsProper := by rintro z ⟨⟩; decide
  have read : Moment.ofText ahead.text = .ok start := by
    rw [Moment.ofText_text proper]
    exact Moment.atInstant_eq_ok.mpr ⟨by decide, rfl⟩
  refine ⟨text, moved, ?_⟩
  rw [apply_date]
  exact congrArg (Except.map Value.moment) read

end StandardName

end LiveDoc
