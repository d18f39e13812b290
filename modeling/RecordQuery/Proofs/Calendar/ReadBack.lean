import Mathlib.Data.List.Basic
import RecordQuery.Calendar.Literal
import RecordQuery.Proofs.Calendar.Texts
import RecordQuery.Proofs.Number.IntegerText

/-!
# Dates read back from their texts

A form reads a text item by item, and every part of a written date is what one item takes. A time on
the wall is read by the first of the forms without a zone, as no sign follows its `T`. A clock with
its offset is an Internet date, or is read by the first of the forms with a zone if its year has a
sign.

* `spanDigits_append` and `readDigitRun?_padDigits`: runs of digits;
* `readYear?_yearDigits`, `readFraction?_fractionDigits`, `readOffset?_offsetDigits`: the parts that
  are not two digits wide;
* `DateForm.readFrom?_date` and `DateForm.readFrom?_clock`: the dates and the clocks in forms;
* `exists_zone` and `hasZone_offset`: what a literal with a zone ends in;
* `readInternet?_of_reads`: Internet dates;
* `DateLiteral.read?_wall` and `DateLiteral.read?_zoned`: regular times and clocks read back.
-/

namespace RecordQuery

open Text

/-! ## Runs of digits -/

section Runs

variable {cs rest : List Char} {limit low high width n top : Nat}

/-- No digit follows. -/
def EndsDigits (rest : List Char) : Prop := ∀ c ∈ rest.head?, isDigit c = false

/-- The digits at the front are all taken, up to the limit. -/
theorem spanDigits_append (digits : ∀ c ∈ cs, isDigit c = true) (le : cs.length ≤ limit)
    (ends : cs.length = limit ∨ EndsDigits rest) : spanDigits limit (cs ++ rest) = (cs, rest) := by
  induction cs generalizing limit with
  | nil =>
    cases limit with
    | zero => rfl
    | succ limit =>
      cases rest with
      | nil => rfl
      | cons c rest =>
        obtain full | ends := ends
        · cases full
        · have other : ¬ isDigit c = true := ne_true_of_eq_false (ends c rfl)
          rw [List.nil_append, spanDigits, if_neg other]
  | cons c cs ih =>
    obtain ⟨first, others⟩ := List.forall_mem_cons.1 digits
    cases limit with
    | zero => cases le
    | succ limit =>
      rw [List.cons_append, spanDigits, if_pos first,
        ih others (Nat.le_of_succ_le_succ le) (ends.imp_left Nat.succ.inj)]

theorem readDigitRun?_append (digits : ∀ c ∈ cs, isDigit c = true) (some : low ≤ cs.length)
    (le : cs.length ≤ high) (ends : cs.length = high ∨ EndsDigits rest) :
    readDigitRun? low high (cs ++ rest) = .some (digitsValue cs, rest) := by
  rw [readDigitRun?, spanDigits_append digits le ends]
  exact if_neg (Nat.not_lt.2 some)

/-- A number of full width is read, whatever follows. -/
theorem readDigitRun?_padDigits (pos : 0 < width) (lt : n < 10 ^ width) (le : low ≤ width)
    (rest : List Char) : readDigitRun? low width (padDigits width n ++ rest) = some (n, rest) := by
  have length := length_padDigits pos lt
  rw [readDigitRun?_append (fun _ => isDigit_of_mem_padDigits) (by omega) (by omega) (.inl length),
    digitsValue_padDigits]

/-- A text that begins with no blank keeps its front. -/
theorem trimStart_append (some : cs ≠ []) (visible : ∀ c ∈ cs, isBlank c = false)
    (rest : List Char) : trimStart (cs ++ rest) = cs ++ rest := by
  obtain ⟨c, cs, rfl⟩ := List.exists_cons_of_ne_nil some
  exact trimStart_of_not_blank (visible c List.mem_cons_self)

theorem trimStart_padDigits (pos : 0 < width) (n : Nat) (rest : List Char) :
    trimStart (padDigits width n ++ rest) = padDigits width n ++ rest :=
  trimStart_append
    (List.length_pos_iff.1 (Nat.lt_of_lt_of_le pos (le_length_padDigits width n)))
    (fun _ mem => isBlank_of_isDigit (isDigit_of_mem_padDigits mem)) rest

theorem readField?_padDigits (le : n ≤ top) (lt : top < 100) (rest : List Char) :
    readField? top (padDigits 2 n ++ rest) = some (n, rest) := by
  rw [readField?, trimStart_padDigits (by decide),
    readDigitRun?_padDigits (by decide) (Nat.lt_of_le_of_lt le lt) (by decide)]
  exact Option.filter_some_pos (decide_eq_true le)

end Runs

/-! ## Years, fractions and offsets -/

section Parts

variable {rest : List Char}

/-- Digits without a sign are a year of at most four of them. -/
theorem readYear?_of_digits {cs : List Char} (digits : ∀ c ∈ cs, isDigit c = true)
    (some : cs ≠ []) :
    readYear? (cs ++ rest) =
      (readDigitRun? 1 4 (cs ++ rest)).map fun (n, rest) => ((n : Int), rest) := by
  obtain ⟨c, cs, rfl⟩ := List.exists_cons_of_ne_nil some
  have digit := digits c List.mem_cons_self
  rw [List.cons_append]
  unfold readYear?
  split
  · next sign => cases (List.cons.inj sign).1 ▸ digit
  · next sign => cases (List.cons.inj sign).1 ▸ digit
  · rfl

/-- A year is read with its sign. -/
theorem readYear?_yearDigits (year : Int) (ends : EndsDigits rest) :
    readYear? (yearDigits year ++ rest) = some (year, rest) := by
  have all (n : Nat) : readAllDigits? (padDigits 4 n ++ rest) = some (n, rest) := by
    have length := le_length_padDigits 4 n
    rw [readAllDigits?, readDigitRun?_append (fun _ => isDigit_of_mem_padDigits) (by omega)
      (by rw [List.length_append]; omega) (.inr ends), digitsValue_padDigits]
  unfold yearDigits
  split
  · next inside =>
    have some : padDigits 4 year.toNat ≠ [] :=
      List.length_pos_iff.1 (Nat.lt_of_lt_of_le (by decide) (le_length_padDigits 4 _))
    rw [readYear?_of_digits (fun _ => isDigit_of_mem_padDigits) some,
      readDigitRun?_padDigits (by decide) (by omega) (by decide), Option.map_some]
    exact congrArg (fun year => Option.some (year, rest)) (Int.toNat_of_nonneg inside.1)
  · split
    · rw [List.cons_append, readYear?, all, Option.map_some]
      exact congrArg (fun year => some (year, rest)) (show -(year.natAbs : Int) = year by omega)
    · rw [List.cons_append, readYear?, all, Option.map_some]
      exact congrArg (fun year => some (year, rest)) (show (year.natAbs : Int) = year by omega)

theorem trimStart_yearDigits (year : Int) (rest : List Char) :
    trimStart (yearDigits year ++ rest) = yearDigits year ++ rest := by
  refine trimStart_append ?_ (fun c mem => ?_) rest
  · intro empty
    have read := readInt?_yearDigits year
    rw [empty] at read
    cases read
  · rcases mem_yearDigits mem with rfl | rfl | digit
    · rfl
    · rfl
    · exact isBlank_of_isDigit digit

/-- What a clock shows. -/
theorem LocalDateTime.clock_le (t : LocalDateTime) :
    t.hour ≤ 23 ∧ t.minute ≤ 59 ∧ t.shownSecond ≤ 60 := by
  have second := t.second_lt
  have nano := t.nano_lt
  unfold hour minute shownSecond
  unfold secondsPerDay at second
  unfold nanosPerSecond at *
  omega

/-- A regular time is made of what its clock shows. -/
theorem LocalDateTime.Regular.ofParts?_shown {t : LocalDateTime} (h : t.Regular) :
    ofParts? t.date t.hour t.minute t.shownSecond t.shownNano = some t := by
  obtain ⟨hours, minutes, -⟩ := t.clock_le
  have bound := t.second_lt
  have nano := t.nano_lt
  have parts : (if t.shownSecond = 60 then (59, t.shownNano + nanosPerSecond)
      else (t.shownSecond, t.shownNano)) = (t.second % 60, t.nano) := by
    unfold Regular at h
    unfold shownSecond shownNano
    unfold nanosPerSecond at *
    split <;> exact Prod.ext (by dsimp only; omega) (by dsimp only; omega)
  have total : (t.hour * 60 + t.minute) * 60 + t.second % 60 = t.second := by
    unfold hour minute
    omega
  have lt : t.second % 60 < 60 := Nat.mod_lt _ (by decide)
  unfold ofParts?
  rw [parts]
  simp only [total]
  exact dif_pos ⟨by omega, by omega, lt, bound, nano⟩

/-- A point and digits, or nothing. -/
theorem LocalDateTime.fractionDigits_cases (t : LocalDateTime) :
    t.fractionDigits = [] ∨ ∃ cs, t.fractionDigits = '.' :: cs ∧ cs ≠ [] ∧ cs.length ≤ 9 ∧
      ∀ c ∈ cs, isDigit c = true := by
  have bound : t.shownNano < 1000000000 := Nat.mod_lt _ (by decide)
  have digits {width n : Nat} (pos : 0 < width) (le : width ≤ 9) (lt : n < 10 ^ width) :
      padDigits width n ≠ [] ∧ (padDigits width n).length ≤ 9 ∧
        ∀ c ∈ padDigits width n, isDigit c = true := by
    have length := length_padDigits pos lt
    exact ⟨List.length_pos_iff.1 (by omega), by omega, fun _ => isDigit_of_mem_padDigits⟩
  unfold fractionDigits
  dsimp only
  split
  · exact .inl rfl
  · split
    · exact .inr ⟨_, rfl, digits (by decide) (by decide) (by omega)⟩
    · split
      · exact .inr ⟨_, rfl, digits (by decide) (by decide) (by omega)⟩
      · exact .inr ⟨_, rfl, digits (by decide) (by decide) bound⟩

/-- A fraction is read into the nanoseconds that it was written for. -/
theorem readFraction?_fractionDigits (t : LocalDateTime) (ends : EndsDigits rest)
    (point : rest.head? ≠ some '.') :
    readFraction? (t.fractionDigits ++ rest) = some (t.shownNano, rest) := by
  have value := t.fractionNano_fractionDigits
  rcases t.fractionDigits_cases with none | ⟨cs, text, some, le, digits⟩
  · rw [none] at value ⊢
    rw [← value, List.nil_append]
    unfold readFraction?
    split
    · exact absurd rfl point
    · rfl
  · have after : rest.dropWhile isDigit = rest := by
      cases rest with
      | nil => rfl
      | cons c rest => exact List.dropWhile_cons_of_neg (ne_true_of_eq_false (ends c rfl))
    have filled : cs.isEmpty = false := List.isEmpty_eq_false_iff.2 some
    rw [text] at value ⊢
    rw [List.cons_append, readFraction?, spanDigits_append digits le (.inr ends)]
    dsimp only
    rw [filled, after, ← value]
    rfl

/-- An offset is read if the colon in it is skipped. -/
theorem OffsetDateTime.Regular.readOffset?_offsetDigits {t : OffsetDateTime} (h : t.Regular)
    {separator : List Char → Option (List Char)}
    (skips : ∀ n, separator (':' :: padDigits 2 n) = some (padDigits 2 n)) :
    readOffset? separator t.offsetDigits = some (t.offset, []) := by
  have whole := h.minutes
  have lt := h.lt_day
  unfold secondsPerDay at lt
  have hours : readDigitRun? 2 2 (padDigits 2 ((t.offset.natAbs + 30) / 60 / 60) ++
      ':' :: padDigits 2 ((t.offset.natAbs + 30) / 60 % 60)) =
        some ((t.offset.natAbs + 30) / 60 / 60,
          ':' :: padDigits 2 ((t.offset.natAbs + 30) / 60 % 60)) :=
    readDigitRun?_padDigits (by decide) (by omega) (by decide) _
  have minutes : readDigitRun? 2 2 (padDigits 2 ((t.offset.natAbs + 30) / 60 % 60)) =
      some ((t.offset.natAbs + 30) / 60 % 60, []) := by
    have read : readDigitRun? 2 2 (padDigits 2 ((t.offset.natAbs + 30) / 60 % 60) ++ []) = _ :=
      readDigitRun?_padDigits (by decide) (by omega) (by decide) []
    rwa [List.append_nil] at read
  have inHour : (t.offset.natAbs + 30) / 60 % 60 < 60 := Nat.mod_lt _ (by decide)
  unfold offsetDigits
  dsimp only
  rw [List.cons_append]
  split
  · rw [readOffset?]
    dsimp only
    rw [Option.bind_some, hours, Option.bind_some, skips, Option.bind_some, minutes,
      Option.bind_some, if_pos inHour]
    exact congrArg (fun seconds => some (seconds, [])) (by omega)
  · rw [readOffset?]
    dsimp only
    rw [Option.bind_some, hours, Option.bind_some, skips, Option.bind_some, minutes,
      Option.bind_some, if_pos inHour]
    exact congrArg (fun seconds => some (seconds, [])) (by omega)

end Parts

/-! ## Forms -/

namespace DateForm

variable {rest : List Char} {n : Nat}

@[simp]
theorem readFrom?_literal (parts : DateParts) (c : Char) (cs : List Char) (items : DateForm) :
    readFrom? parts (c :: cs) (.literal c :: items) = readFrom? parts cs items := by
  rw [readFrom?, DateItem.read?, if_pos rfl, Option.bind_some]

/-- A date is read into its parts. -/
theorem readFrom?_date (d : Date) (parts : DateParts) (rest : List Char) (items : DateForm) :
    readFrom? parts (d.digits ++ rest) (yearFirst '-' ++ items) =
      readFrom? { parts with year := d.year, month := d.month, day := d.day } rest items := by
  have dash : EndsDigits ('-' :: (padDigits 2 d.month ++ '-' :: (padDigits 2 d.day ++ rest))) := by
    rintro c ⟨rfl⟩
    rfl
  simp only [Date.digits, yearFirst, List.append_assoc, List.cons_append, List.nil_append]
  rw [readFrom?, DateItem.read?, trimStart_yearDigits, readYear?_yearDigits d.year dash,
    Option.map_some, Option.bind_some]
  dsimp only
  rw [readFrom?_literal, readFrom?, DateItem.read?,
    readField?_padDigits d.valid.month_le (by decide), Option.map_some, Option.bind_some]
  dsimp only
  rw [readFrom?_literal, readFrom?, DateItem.read?, readField?_padDigits d.day_le (by decide),
    Option.map_some, Option.bind_some]

/-- A time of day is read into what the clock shows. -/
theorem readFrom?_clock (t : LocalDateTime) (parts : DateParts) (rest : List Char)
    (items : DateForm) :
    readFrom? parts (t.clockDigits ++ rest) (toSecond ++ items) =
      readFrom? { parts with hour := t.hour, minute := t.minute, second := t.shownSecond } rest
        items := by
  obtain ⟨hour, minute, second⟩ := t.clock_le
  simp only [LocalDateTime.clockDigits, toSecond, toMinute, List.append_assoc, List.cons_append,
    List.nil_append]
  rw [readFrom?, DateItem.read?, readField?_padDigits hour (by decide), Option.map_some,
    Option.bind_some]
  dsimp only
  rw [readFrom?_literal, readFrom?, DateItem.read?, readField?_padDigits minute (by decide),
    Option.map_some, Option.bind_some]
  dsimp only
  rw [readFrom?_literal, readFrom?, DateItem.read?, readField?_padDigits second (by decide),
    Option.map_some, Option.bind_some]

/-- A time is read into the parts that it was written from. -/
theorem readFrom?_time (t : LocalDateTime) (parts : DateParts) {rest : List Char}
    (ends : EndsDigits rest) (point : rest.head? ≠ some '.') (items : DateForm) :
    readFrom? parts (t.displayDigits ++ rest)
        (yearFirst '-' ++ .literal 'T' :: toSecond ++ .fraction :: items) =
      readFrom? ⟨t.date.year, t.date.month, t.date.day, t.hour, t.minute, t.shownSecond,
        t.shownNano, parts.offset⟩ rest items := by
  rw [LocalDateTime.displayDigits]
  simp only [List.append_assoc, List.cons_append]
  rw [readFrom?_date, readFrom?_literal, readFrom?_clock, readFrom?, DateItem.read?,
    readFraction?_fractionDigits t ends point, Option.map_some, Option.bind_some]

end DateForm

/-- The parts of a regular time make the time. -/
theorem LocalDateTime.Regular.time?_parts {t : LocalDateTime} (h : t.Regular) (offset : Int) :
    DateParts.time? ⟨t.date.year, t.date.month, t.date.day, t.hour, t.minute, t.shownSecond,
      t.shownNano, offset⟩ = some t := by
  have date : Date.ofParts? t.date.year t.date.month t.date.day = some t.date :=
    dif_pos t.date.valid
  rw [DateParts.time?, DateParts.date?, date, Option.bind_some, h.ofParts?_shown]

/-- The parts of a regular clock make the clock. -/
theorem OffsetDateTime.Regular.offsetTime?_parts {t : OffsetDateTime} (h : t.Regular) :
    DateParts.offsetTime? ⟨t.wall.date.year, t.wall.date.month, t.wall.date.day, t.wall.hour,
      t.wall.minute, t.wall.shownSecond, t.wall.shownNano, t.offset⟩ = some t := by
  rw [DateParts.offsetTime?, h.wall.time?_parts, Option.bind_some, ofWall?, if_pos h.lt_day]
  split
  · next instant found =>
    exact congrArg some (eq_of_wall rfl rfl)
  · next none =>
    rw [t.instant_eq] at none
    cases none

/-! ## Zones -/

/-- What a literal with a zone ends in. -/
theorem exists_zone {cs : List Char} (h : hasZone cs = true) :
    ∃ front zone c, cs = front ++ zone ∧ zone.length ≤ 6 ∧ c ∈ zone ∧ c ∈ ['Z', 'z', '+', '-'] := by
  have text := List.reverse_reverse cs
  unfold hasZone at h
  split at h
  · next rest ends =>
    rw [ends, List.reverse_cons] at text
    exact ⟨rest.reverse, ['Z'], 'Z', text.symm, by decide, by decide, by decide⟩
  · next rest ends =>
    rw [ends, List.reverse_cons] at text
    exact ⟨rest.reverse, ['z'], 'z', text.symm, by decide, by decide, by decide⟩
  · next d c rest _ _ ends =>
    rw [ends] at text
    obtain ⟨-, signed⟩ := Bool.and_eq_true_iff.1 h
    split at signed
    · next b a sign front found =>
      have sign_mem : sign ∈ ['Z', 'z', '+', '-'] := by
        have sign_eq := (Bool.and_eq_true_iff.1 signed).2
        rw [Bool.or_eq_true, beq_iff_eq, beq_iff_eq] at sign_eq
        rcases sign_eq with rfl | rfl <;> decide
      split at found
      · subst found
        exact ⟨front.reverse, [sign, a, b, ':', c, d], sign, by simpa using text.symm, by simp,
          List.mem_cons_self, sign_mem⟩
      · subst found
        exact ⟨front.reverse, [sign, a, b, c, d], sign, by simpa using text.symm, by simp,
          List.mem_cons_self, sign_mem⟩
    · cases signed
  · cases h

theorem isDecimalDigit_of_isDigit {c : Char} (h : isDigit c = true) : isDecimalDigit c = true := by
  obtain ⟨lower, upper⟩ := toNat_of_isDigit h
  exact List.any_eq_true.2 ⟨0x30, List.mem_cons_self, by
    rw [Bool.and_eq_true, decide_eq_true_eq, decide_eq_true_eq]
    exact ⟨lower, by omega⟩⟩

/-- Behind its `T` a time has digits, colons and a point. -/
theorem LocalDateTime.mem_timeDigits {t : LocalDateTime} {c : Char}
    (mem : c ∈ t.clockDigits ++ t.fractionDigits) : c = ':' ∨ c = '.' ∨ isDigit c = true := by
  have clock {n : Nat} (mem : c ∈ padDigits 2 n) : c = ':' ∨ c = '.' ∨ isDigit c = true :=
    .inr (.inr (isDigit_of_mem_padDigits mem))
  rcases List.mem_append.1 mem with front | back
  · simp only [clockDigits, List.mem_append, List.mem_cons] at front
    rcases front with (hour | rfl | minute) | rfl | second
    · exact clock hour
    · exact .inl rfl
    · exact clock minute
    · exact .inl rfl
    · exact clock second
  · rcases t.fractionDigits_cases with none | ⟨cs, text, -, -, digits⟩
    · rw [none] at back
      cases back
    · rw [text] at back
      exact .inr ((List.mem_cons.1 back).imp_right (digits c))

/-- A time on the wall is written without a zone. -/
theorem LocalDateTime.hasZone_displayDigits (t : LocalDateTime) :
    hasZone t.displayDigits = false := by
  refine eq_false_of_ne_true fun zoned => ?_
  obtain ⟨front, zone, c, cut, short, mem, marks⟩ := exists_zone zoned
  have long : zone.length ≤ (t.clockDigits ++ t.fractionDigits).length := by
    rw [List.length_append, t.length_clockDigits]
    omega
  have tail : t.clockDigits ++ t.fractionDigits <:+ t.displayDigits :=
    ⟨t.date.digits ++ ['T'], by
      simp only [displayDigits, List.append_assoc, List.cons_append, List.nil_append]⟩
  have suffix : zone <:+ t.clockDigits ++ t.fractionDigits :=
    List.suffix_of_suffix_length_le ⟨front, cut.symm⟩ tail long
  have chars := mem_timeDigits (suffix.mem mem)
  simp only [List.mem_cons, List.not_mem_nil, or_false] at marks
  rcases marks with rfl | rfl | rfl | rfl <;> exact absurd chars (by decide)

/-- An offset with a colon is a zone. -/
theorem hasZone_offset {sign a b c d : Char} (signed : sign = '+' ∨ sign = '-')
    (digits : ∀ x ∈ [a, b, c, d], isDigit x = true) (front : List Char) :
    hasZone (front ++ [sign, a, b, ':', c, d]) = true := by
  have all (x : Char) (mem : x ∈ [a, b, c, d]) : isDecimalDigit x = true :=
    isDecimalDigit_of_isDigit (digits x mem)
  have sign_eq : (sign == '+' || sign == '-') = true := by
    rcases signed with rfl | rfl <;> rfl
  have text : (front ++ [sign, a, b, ':', c, d]).reverse =
      d :: c :: ':' :: b :: a :: sign :: front.reverse := by simp
  unfold hasZone
  rw [text]
  split
  · rfl
  · rfl
  · next other other' rest _ _ ends =>
    cases ends
    show (isDecimalDigit d && isDecimalDigit c && (isDecimalDigit b && isDecimalDigit a &&
      (sign == '+' || sign == '-'))) = true
    rw [all d (by simp), all c (by simp), all b (by simp), all a (by simp), sign_eq]
    rfl
  · next _ _ other => exact absurd rfl (other d c _)

/-- A clock is written with its zone. -/
theorem OffsetDateTime.Regular.hasZone_displayDigits {t : OffsetDateTime} (h : t.Regular) :
    hasZone t.displayDigits = true := by
  have lt := h.lt_day
  unfold secondsPerDay at lt
  have pair {n : Nat} (lt : n < 100) : ∃ a b, padDigits 2 n = [a, b] ∧ isDigit a = true ∧
      isDigit b = true := by
    have digits {c : Char} (mem : c ∈ padDigits 2 n) : isDigit c = true :=
      isDigit_of_mem_padDigits mem
    have length : (padDigits 2 n).length = 2 := length_padDigits (by decide) lt
    obtain ⟨a, b, text⟩ := List.length_eq_two.1 length
    rw [text] at digits
    exact ⟨a, b, text, digits List.mem_cons_self,
      digits (List.mem_cons_of_mem _ List.mem_cons_self)⟩
  obtain ⟨a, b, hours, ha, hb⟩ := pair (n := (t.offset.natAbs + 30) / 60 / 60) (by omega)
  obtain ⟨c, d, minutes, hc, hd⟩ := pair (n := (t.offset.natAbs + 30) / 60 % 60) (by omega)
  unfold displayDigits offsetDigits
  dsimp only
  rw [hours, minutes]
  refine hasZone_offset ?_ ?_ _
  · split
    · exact .inr rfl
    · exact .inl rfl
  · simp [ha, hb, hc, hd]

/-! ## Internet dates -/

section Internet

variable {cs afterYear afterMonth afterDay afterHour afterMinute afterSecond rest : List Char}
  {year month day hour minute second nano : Nat} {offset : Int}

/-- An Internet date is read part by part. -/
theorem readInternet?_of_reads (hyear : readDigitRun? 4 4 cs = some (year, '-' :: afterYear))
    (hmonth : readDigitRun? 2 2 afterYear = some (month, '-' :: afterMonth))
    (hday : readDigitRun? 2 2 afterMonth = some (day, 'T' :: afterDay))
    (hhour : readDigitRun? 2 2 afterDay = some (hour, ':' :: afterHour))
    (hminute : readDigitRun? 2 2 afterHour = some (minute, ':' :: afterMinute))
    (hsecond : readDigitRun? 2 2 afterMinute = some (second, afterSecond)) (le : second ≤ 60)
    (hnano : readFraction? afterSecond = some (nano, rest))
    (hzone : readInternet?.zone rest = some (offset, [])) :
    readInternet? cs =
      DateParts.offsetTime? ⟨year, month, day, hour, minute, second, nano, offset⟩ := by
  have dash (cs : List Char) : readInternet?.dash ('-' :: cs) = some cs := rfl
  have mark (cs : List Char) : readInternet?.separator ('T' :: cs) = some cs := rfl
  have colon (cs : List Char) : colonSeparator (':' :: cs) = some cs := rfl
  have ends : ¬ (!([] : List Char).isEmpty || decide (60 < second)) = true := by
    simpa using le
  unfold readInternet?
  simp only [Option.bind_eq_bind]
  rw [hyear, Option.bind_some, dash, Option.bind_some, hmonth, Option.bind_some, dash,
    Option.bind_some, hday, Option.bind_some, mark, Option.bind_some, hhour, Option.bind_some,
    colon, Option.bind_some, hminute, Option.bind_some, colon, Option.bind_some, hsecond,
    Option.bind_some, hnano, Option.bind_some, hzone, Option.bind_some]
  exact if_neg ends

end Internet

/-! ## Literals -/

section Blanks

variable {c : Char}

theorem isBlank_of_mem_padDigits {width n : Nat} (mem : c ∈ padDigits width n) :
    isBlank c = false :=
  isBlank_of_isDigit (isDigit_of_mem_padDigits mem)

theorem isBlank_of_mem_dateDigits {d : Date} (mem : c ∈ d.digits) : isBlank c = false := by
  simp only [Date.digits, List.mem_append, List.mem_cons] at mem
  rcases mem with (year | rfl | month) | rfl | day
  · rcases mem_yearDigits year with rfl | rfl | digit
    · rfl
    · rfl
    · exact isBlank_of_isDigit digit
  · rfl
  · exact isBlank_of_mem_padDigits month
  · rfl
  · exact isBlank_of_mem_padDigits day

theorem isBlank_of_mem_displayDigits {t : LocalDateTime} (mem : c ∈ t.displayDigits) :
    isBlank c = false := by
  rw [LocalDateTime.displayDigits, List.append_assoc, List.cons_append] at mem
  rcases List.mem_append.1 mem with date | back
  · exact isBlank_of_mem_dateDigits date
  · rcases List.mem_cons.1 back with rfl | time
    · rfl
    · rcases LocalDateTime.mem_timeDigits time with rfl | rfl | digit
      · rfl
      · rfl
      · exact isBlank_of_isDigit digit

theorem isBlank_of_mem_offsetDigits {t : OffsetDateTime} (mem : c ∈ t.offsetDigits) :
    isBlank c = false := by
  simp only [OffsetDateTime.offsetDigits, List.cons_append, List.mem_append, List.mem_cons] at mem
  rcases mem with rfl | hours | rfl | minutes
  · split <;> rfl
  · exact isBlank_of_mem_padDigits hours
  · rfl
  · exact isBlank_of_mem_padDigits minutes

end Blanks

namespace OffsetDateTime

variable {t : OffsetDateTime}

theorem offsetDigits_cases (t : OffsetDateTime) :
    ∃ rest, t.offsetDigits = '-' :: rest ∨ t.offsetDigits = '+' :: rest := by
  unfold offsetDigits
  dsimp only
  split
  · exact ⟨_, .inl rfl⟩
  · exact ⟨_, .inr rfl⟩

/-- A sign follows the time on the wall. -/
theorem offsetDigits_head (t : OffsetDateTime) :
    EndsDigits t.offsetDigits ∧ t.offsetDigits.head? ≠ some '.' := by
  obtain ⟨rest, text | text⟩ := t.offsetDigits_cases <;> simp [text, EndsDigits, isDigit]

theorem trimStart_offsetDigits (t : OffsetDateTime) :
    trimStart t.offsetDigits = t.offsetDigits := by
  obtain ⟨rest, text | text⟩ := t.offsetDigits_cases <;> rw [text] <;> rfl

theorem zone_offsetDigits (t : OffsetDateTime) :
    readInternet?.zone t.offsetDigits = readOffset? colonSeparator t.offsetDigits := by
  obtain ⟨rest, text | text⟩ := t.offsetDigits_cases <;> rw [text] <;> rfl

theorem looseSeparator_padDigits (n : Nat) :
    looseSeparator (':' :: padDigits 2 n) = some (padDigits 2 n) := by
  have digits {c : Char} (mem : c ∈ padDigits 2 n) : isDigit c = true :=
    isDigit_of_mem_padDigits mem
  have length := le_length_padDigits 2 n
  unfold looseSeparator
  generalize padDigits 2 n = cs at digits length
  cases cs with
  | nil => cases length
  | cons c cs =>
    have digit := digits List.mem_cons_self
    have other : ¬ (c == ':' || isBlank c) = true := by
      rw [isBlank_of_isDigit digit, Bool.or_false, beq_iff_eq]
      rintro rfl
      cases digit
    rw [List.dropWhile_cons_of_pos (by rfl)]
    exact congrArg some (List.dropWhile_cons_of_neg other)

/-- The form that reads a clock with any year. -/
theorem Regular.read?_form (h : t.Regular) :
    (DateForm.read? (DateForm.yearFirst '-' ++ .literal 'T' :: DateForm.toSecond ++
      [.fraction, .offset]) t.displayDigits).bind DateParts.offsetTime? = some t := by
  obtain ⟨ends, point⟩ := t.offsetDigits_head
  rw [displayDigits, DateForm.read?, DateForm.readFrom?_time t.wall {} ends point [.offset],
    DateForm.readFrom?, DateItem.read?, trimStart_offsetDigits,
    h.readOffset?_offsetDigits looseSeparator_padDigits, Option.map_some, Option.bind_some]
  exact h.offsetTime?_parts

/-- A year without a sign makes an Internet date, a year with a sign does not. -/
theorem Regular.readInternet?_displayDigits (h : t.Regular) :
    readInternet? t.displayDigits = none ∨ readInternet? t.displayDigits = some t := by
  obtain ⟨ends, point⟩ := t.offsetDigits_head
  obtain ⟨hour, minute, second⟩ := t.wall.clock_le
  have month := t.wall.date.valid.month_le
  have day := t.wall.date.day_le
  have pair {n : Nat} (lt : n < 100) (rest : List Char) :
      readDigitRun? 2 2 (padDigits 2 n ++ rest) = some (n, rest) :=
    readDigitRun?_padDigits (by decide) lt (by decide) rest
  have zone : readInternet?.zone t.offsetDigits = some (t.offset, []) :=
    t.zone_offsetDigits.trans (h.readOffset?_offsetDigits fun _ => rfl)
  have nano := readFraction?_fractionDigits t.wall ends point
  simp only [displayDigits, LocalDateTime.displayDigits, LocalDateTime.clockDigits, Date.digits,
    yearDigits, List.append_assoc, List.cons_append]
  split
  · next inside =>
    have whole : (t.wall.date.year.toNat : Int) = t.wall.date.year := Int.toNat_of_nonneg inside.1
    have parts := h.offsetTime?_parts
    rw [← whole] at parts
    refine .inr ((readInternet?_of_reads ?_ (pair ?_ _) (pair ?_ _) (pair ?_ _) (pair ?_ _)
      (pair ?_ _) second nano zone).trans parts)
    · exact readDigitRun?_padDigits (by decide) (by omega) (by decide) _
    all_goals omega
  · split
    · exact .inl rfl
    · exact .inl rfl

end OffsetDateTime

namespace DateLiteral

/-- **Times on the wall read back.** -/
theorem read?_wall {t : LocalDateTime} (h : t.Regular) : read? t.display = some (.wall t) := by
  have text : t.display.toList = t.displayDigits := String.toList_ofList
  have trimmed : trim t.displayDigits = t.displayDigits :=
    trim_of_all_not_blank fun _ => isBlank_of_mem_displayDigits
  have ends : EndsDigits [] := fun _ none => by cases none
  have form := DateForm.readFrom?_time t {} ends nofun []
  rw [List.append_nil] at form
  have read : readWall? t.displayDigits = some t := by
    rw [readWall?, DateForm.withTime, List.findSome?_cons, DateForm.read?, form, DateForm.readFrom?,
      List.isEmpty_nil, if_pos rfl, Option.bind_some, h.time?_parts]
  rw [read?, text, trimmed, t.hasZone_displayDigits, if_neg Bool.false_ne_true, read]
  rfl

/-- **Clocks read back** with their offsets. -/
theorem read?_zoned {t : OffsetDateTime} (h : t.Regular) : read? t.display = some (.zoned t) := by
  have text : t.display.toList = t.displayDigits := String.toList_ofList
  have trimmed : trim t.displayDigits = t.displayDigits := by
    refine trim_of_all_not_blank fun c mem => ?_
    rcases List.mem_append.1 mem with wall | offset
    · exact isBlank_of_mem_displayDigits wall
    · exact isBlank_of_mem_offsetDigits offset
  have read : readZoned? t.displayDigits = some t := by
    rcases h.readInternet?_displayDigits with none | internet
    · rw [readZoned?, none, DateForm.withOffset, List.findSome?_cons, h.read?_form]
    · rw [readZoned?, internet]
  rw [read?, text, trimmed, h.hasZone_displayDigits, if_pos rfl, read]
  rfl

end DateLiteral

end RecordQuery
