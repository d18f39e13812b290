import RecordQuery.Proofs.Calendar.Order
import RecordQuery.Proofs.Calendar.ReadBack

/-!
# Literals in universal time

Every date that is read is regular: the items of a form give nanoseconds below a second and offsets
of whole minutes, so that a leap second stays behind a second of 59 when the clock is moved to
universal time. A regular time of the years 0 to 9999 is then written in universal time and read
back to the millisecond.

* `LocalDateTime.toMillis`: a time without what is finer than a millisecond;
* `DateLiteral.read?_canonical`: what the text in universal time is read as;
* `DateParts.Fine`: what forms read, and `DateForm.fine_readFrom?`;
* `DateLiteral.regular_of_read?`: what a literal denotes is regular.
-/

namespace RecordQuery

open Text

/-! ## Milliseconds -/

namespace LocalDateTime

variable {t s : LocalDateTime} {seconds : Int}

/-- A time without what is finer than a millisecond. -/
def toMillis (t : LocalDateTime) : LocalDateTime where
  date := t.date
  second := t.second
  nano := t.nano - t.nano % 1000000
  second_lt := t.second_lt
  nano_lt := Nat.lt_of_le_of_lt (Nat.sub_le _ _) t.nano_lt

theorem shownSecond_toMillis (t : LocalDateTime) : t.toMillis.shownSecond = t.shownSecond := by
  unfold shownSecond toMillis nanosPerSecond
  dsimp only
  omega

theorem shownNano_toMillis (t : LocalDateTime) :
    t.toMillis.shownNano = t.shownNano / 1000000 * 1000000 := by
  unfold shownNano toMillis nanosPerSecond
  dsimp only
  omega

theorem Regular.toMillis (h : t.Regular) : t.toMillis.Regular :=
  h.imp_left (Nat.lt_of_le_of_lt (Nat.sub_le _ _))

/-- The text in universal time does not show what is finer. -/
theorem canonical_toMillis (t : LocalDateTime) : t.toMillis.canonical = t.canonical := by
  have milli : t.toMillis.milliDigits = t.milliDigits := by
    rw [milliDigits, shownNano_toMillis, Nat.mul_div_cancel _ (by decide), milliDigits]
  have clock : t.toMillis.clockDigits = t.clockDigits := by
    rw [clockDigits, shownSecond_toMillis]
    rfl
  rw [canonical, stampDigits, milli, clock]
  rfl

/-- A clock that is moved by whole minutes stays regular. -/
theorem Regular.shift? (h : t.Regular) (whole : seconds % 60 = 0)
    (moved : t.shift? seconds = some s) : s.Regular := by
  have second := (shift?_cases moved).2
  obtain ⟨day, -, rfl⟩ := Option.map_eq_some_iff.1 moved
  refine h.imp_right fun last => ?_
  unfold secondsPerDay at *
  omega

/-! ## The text in universal time -/

theorem readFraction?_milliDigits (t : LocalDateTime) :
    readFraction? ('.' :: (t.milliDigits ++ ['Z'])) =
      some (t.shownNano / 1000000 * 1000000, ['Z']) := by
  have bound : t.shownNano < 1000000000 := Nat.mod_lt _ (by decide)
  have digits : ∀ c ∈ t.milliDigits, isDigit c = true := fun _ => isDigit_of_mem_padDigits
  have length : t.milliDigits.length = 3 := length_padDigits (by decide) (by omega)
  have value : digitsValue t.milliDigits = t.shownNano / 1000000 := digitsValue_padDigits _ _
  have some : t.milliDigits.isEmpty = false := List.isEmpty_eq_false_iff.2 fun none => by
    rw [none] at length
    cases length
  have ends : EndsDigits ['Z'] := by
    rintro c ⟨rfl⟩
    rfl
  rw [readFraction?, spanDigits_append digits (by omega) (.inr ends)]
  dsimp only
  rw [some, length, value]
  rfl

/-- A regular time in universal time is an Internet date. -/
theorem Regular.readInternet?_stampDigits (h : t.Regular) (low : 0 ≤ t.date.year)
    (high : t.date.year ≤ 9999) :
    readInternet? (t.stampDigits ++ ['Z']) = some (.ofUniversal t.toMillis) := by
  obtain ⟨hour, minute, second⟩ := t.clock_le
  have month := t.date.valid.month_le
  have day := t.date.day_le
  have pair {n : Nat} (lt : n < 100) (rest : List Char) :
      readDigitRun? 2 2 (padDigits 2 n ++ rest) = some (n, rest) :=
    readDigitRun?_padDigits (by decide) lt (by decide) rest
  have whole : (t.date.year.toNat : Int) = t.date.year := Int.toNat_of_nonneg low
  have regular : (OffsetDateTime.ofUniversal t.toMillis).Regular :=
    ⟨h.toMillis, rfl, (by decide : (0 : Int).natAbs < secondsPerDay)⟩
  have parts : DateParts.offsetTime? ⟨(t.date.year.toNat : Int), t.date.month, t.date.day, t.hour,
      t.minute, t.shownSecond, t.shownNano / 1000000 * 1000000, 0⟩ =
        some (.ofUniversal t.toMillis) := by
    have made := regular.offsetTime?_parts
    rw [OffsetDateTime.ofUniversal, shownSecond_toMillis, shownNano_toMillis] at made
    rw [whole]
    exact made
  simp only [stampDigits, clockDigits, Date.digits, yearDigits, low, high, and_self, if_true,
    List.append_assoc, List.cons_append]
  refine (readInternet?_of_reads ?_ (pair ?_ _) (pair ?_ _) (pair ?_ _) (pair ?_ _) (pair ?_ _)
    second t.readFraction?_milliDigits rfl).trans parts
  · exact readDigitRun?_padDigits (by decide) (by omega) (by decide) _
  all_goals omega

end LocalDateTime

theorem isBlank_of_mem_stampDigits {t : LocalDateTime} {c : Char} (mem : c ∈ t.stampDigits) :
    isBlank c = false := by
  rw [LocalDateTime.stampDigits, List.append_assoc, List.cons_append] at mem
  rcases List.mem_append.1 mem with date | back
  · exact isBlank_of_mem_dateDigits date
  · simp only [List.mem_cons, List.mem_append] at back
    rcases back with rfl | clock | rfl | milli
    · rfl
    · rcases LocalDateTime.mem_timeDigits (List.mem_append_left _ clock) with rfl | rfl | digit
      · rfl
      · rfl
      · exact isBlank_of_isDigit digit
    · rfl
    · exact isBlank_of_mem_padDigits milli

namespace DateLiteral

/-- **The text in universal time** denotes the time to the millisecond. -/
theorem read?_canonical {t : LocalDateTime} (h : t.Regular) (low : 0 ≤ t.date.year)
    (high : t.date.year ≤ 9999) : read? t.canonical = some (.zoned (.ofUniversal t.toMillis)) := by
  have text : t.canonical.toList = t.stampDigits ++ ['Z'] := String.toList_ofList
  have trimmed : trim (t.stampDigits ++ ['Z']) = t.stampDigits ++ ['Z'] := by
    refine trim_of_all_not_blank fun c mem => ?_
    rcases List.mem_append.1 mem with stamp | zone
    · exact isBlank_of_mem_stampDigits stamp
    · obtain rfl := List.mem_singleton.1 zone
      rfl
  have zone : hasZone (t.stampDigits ++ ['Z']) = true := by
    rw [hasZone, List.reverse_append]
    rfl
  rw [read?, text, trimmed, zone, if_pos rfl, readZoned?, h.readInternet?_stampDigits low high]
  rfl

end DateLiteral

/-! ## What is read -/

section Read

variable {cs rest : List Char} {n : Nat} {seconds : Int}

theorem spanDigits_spec (limit : Nat) (cs : List Char) :
    (spanDigits limit cs).1.length ≤ limit ∧ ∀ c ∈ (spanDigits limit cs).1, isDigit c = true := by
  induction limit generalizing cs with
  | zero => exact ⟨Nat.le_refl 0, List.forall_mem_nil _⟩
  | succ limit ih =>
    cases cs with
    | nil => exact ⟨Nat.zero_le _, List.forall_mem_nil _⟩
    | cons c cs =>
      rw [spanDigits]
      split
      · next digit =>
        obtain ⟨short, digits⟩ := ih cs
        exact ⟨Nat.succ_le_succ short, List.forall_mem_cons.2 ⟨digit, digits⟩⟩
      · exact ⟨Nat.zero_le _, List.forall_mem_nil _⟩

theorem digitsValue_lt (digits : ∀ c ∈ cs, isDigit c = true) : digitsValue cs < 10 ^ cs.length := by
  induction cs with
  | nil => exact Nat.one_pos
  | cons c cs ih =>
    obtain ⟨first, others⟩ := List.forall_mem_cons.1 digits
    have value : digitsValue [c] ≤ 9 := by
      obtain ⟨lower, upper⟩ := toNat_of_isDigit first
      have zero : '0'.toNat = 48 := rfl
      have one : digitsValue [c] = c.toNat - '0'.toNat := Nat.zero_add _
      omega
    have front := Nat.mul_le_mul_right (10 ^ cs.length) value
    have back := ih others
    rw [← List.singleton_append, digitsValue_append, List.singleton_append, List.length_cons,
      Nat.pow_succ]
    omega

/-- A fraction is less than a second. -/
theorem readFraction?_lt (h : readFraction? cs = some (n, rest)) : n < nanosPerSecond := by
  unfold readFraction? at h
  split at h
  · next after =>
    obtain ⟨short, digits⟩ := spanDigits_spec 9 after
    have less := digitsValue_lt digits
    dsimp only at h
    split at h
    · cases h
    · obtain ⟨rfl, -⟩ := Prod.mk.inj (Option.some.inj h)
      calc digitsValue (spanDigits 9 after).1 * 10 ^ (9 - (spanDigits 9 after).1.length)
          < 10 ^ (spanDigits 9 after).1.length * 10 ^ (9 - (spanDigits 9 after).1.length) :=
            Nat.mul_lt_mul_of_pos_right less (Nat.pow_pos (by decide))
        _ = nanosPerSecond := by
            rw [← Nat.pow_add, Nat.add_sub_cancel' short]
            rfl
  · obtain ⟨rfl, -⟩ := Prod.mk.inj (Option.some.inj h)
    decide

/-- An offset has whole minutes. -/
theorem readOffset?_minutes {separator : List Char → Option (List Char)}
    (h : readOffset? separator cs = some (seconds, rest)) : seconds % 60 = 0 := by
  unfold readOffset? at h
  obtain ⟨⟨sign, front⟩, -, h⟩ := Option.bind_eq_some_iff.1 h
  obtain ⟨⟨hours, front⟩, -, h⟩ := Option.bind_eq_some_iff.1 h
  obtain ⟨front, -, h⟩ := Option.bind_eq_some_iff.1 h
  obtain ⟨⟨minutes, front⟩, -, h⟩ := Option.bind_eq_some_iff.1 h
  dsimp only at h
  split at h
  · obtain ⟨rfl, -⟩ := Prod.mk.inj (Option.some.inj h)
    have whole : (hours * 3600 + minutes * 60 : Int) = (hours * 60 + minutes) * 60 := by omega
    rw [whole, ← Int.mul_assoc]
    exact Int.mul_emod_left _ _
  · cases h

end Read

/-- What forms read: nanoseconds below a second, and an offset of whole minutes. -/
structure DateParts.Fine (p : DateParts) : Prop where
  nano : p.nano < nanosPerSecond
  minutes : p.offset % 60 = 0

namespace DateParts.Fine

variable {p : DateParts}

/-- Such parts make a regular time. -/
theorem time? {t : LocalDateTime} (h : p.Fine) (made : p.time? = some t) : t.Regular := by
  obtain ⟨date, -, made⟩ := Option.bind_eq_some_iff.1 made
  have nano := h.nano
  unfold LocalDateTime.ofParts? at made
  by_cases leap : p.second = 60
  · rw [if_pos leap] at made
    dsimp only at made
    split at made
    · obtain rfl := Option.some.inj made
      refine .inr ?_
      dsimp only
      omega
    · cases made
  · rw [if_neg leap] at made
    dsimp only at made
    split at made
    · obtain rfl := Option.some.inj made
      exact .inl nano
    · cases made

/-- With their offset they make a clock whose universal time is regular. -/
theorem offsetTime? {t : OffsetDateTime} (h : p.Fine) (made : p.offsetTime? = some t) :
    t.instant.Regular := by
  obtain ⟨wall, read, made⟩ := Option.bind_eq_some_iff.1 made
  have regular := h.time? read
  unfold OffsetDateTime.ofWall? at made
  split at made
  · split at made
    · next instant moved =>
      obtain rfl := Option.some.inj made
      exact regular.shift? (by have whole := h.minutes; omega) moved
    · cases made
  · cases made

end DateParts.Fine

namespace DateForm

variable {p q : DateParts} {cs rest : List Char}

/-- An item reads such parts. -/
theorem fine_readItem? {item : DateItem} (h : p.Fine) (read : item.read? p cs = some (q, rest)) :
    q.Fine := by
  cases item with
  | literal c =>
    cases cs with
    | nil => cases read
    | cons d cs =>
      rw [DateItem.read?] at read
      split at read
      · obtain ⟨rfl, -⟩ := Prod.mk.inj (Option.some.inj read)
        exact h
      · cases read
  | blank =>
    obtain ⟨rfl, -⟩ := Prod.mk.inj (Option.some.inj read)
    exact h
  | year | month | day | hour | minute | second =>
    obtain ⟨⟨n, after⟩, -, same⟩ := Option.map_eq_some_iff.1 read
    obtain ⟨rfl, -⟩ := Prod.mk.inj same
    exact ⟨h.nano, h.minutes⟩
  | fraction =>
    obtain ⟨⟨n, after⟩, found, same⟩ := Option.map_eq_some_iff.1 read
    obtain ⟨rfl, -⟩ := Prod.mk.inj same
    exact ⟨readFraction?_lt found, h.minutes⟩
  | offset =>
    obtain ⟨⟨n, after⟩, found, same⟩ := Option.map_eq_some_iff.1 read
    obtain ⟨rfl, -⟩ := Prod.mk.inj same
    exact ⟨h.nano, readOffset?_minutes found⟩

/-- So does a form, item by item. -/
theorem fine_readFrom? {form : DateForm} (h : p.Fine) (read : readFrom? p cs form = some q) :
    q.Fine := by
  induction form generalizing p cs with
  | nil =>
    rw [readFrom?] at read
    split at read
    · obtain rfl := Option.some.inj read
      exact h
    · cases read
  | cons item form ih =>
    obtain ⟨⟨next, rest⟩, first, others⟩ := Option.bind_eq_some_iff.1 read
    exact ih (fine_readItem? h first) others

theorem fine_read? {form : DateForm} (read : form.read? cs = some q) : q.Fine :=
  fine_readFrom? ⟨by decide, rfl⟩ read

end DateForm

/-- So do Internet dates. -/
theorem regular_of_readInternet? {cs : List Char} {t : OffsetDateTime}
    (h : readInternet? cs = some t) : t.instant.Regular := by
  unfold readInternet? at h
  simp only [Option.bind_eq_bind] at h
  obtain ⟨⟨year, _⟩, -, h⟩ := Option.bind_eq_some_iff.1 h
  obtain ⟨_, -, h⟩ := Option.bind_eq_some_iff.1 h
  obtain ⟨⟨month, _⟩, -, h⟩ := Option.bind_eq_some_iff.1 h
  obtain ⟨_, -, h⟩ := Option.bind_eq_some_iff.1 h
  obtain ⟨⟨day, _⟩, -, h⟩ := Option.bind_eq_some_iff.1 h
  obtain ⟨_, -, h⟩ := Option.bind_eq_some_iff.1 h
  obtain ⟨⟨hour, _⟩, -, h⟩ := Option.bind_eq_some_iff.1 h
  obtain ⟨_, -, h⟩ := Option.bind_eq_some_iff.1 h
  obtain ⟨⟨minute, _⟩, -, h⟩ := Option.bind_eq_some_iff.1 h
  obtain ⟨_, -, h⟩ := Option.bind_eq_some_iff.1 h
  obtain ⟨⟨second, _⟩, -, h⟩ := Option.bind_eq_some_iff.1 h
  obtain ⟨⟨nano, after⟩, fraction, h⟩ := Option.bind_eq_some_iff.1 h
  obtain ⟨⟨offset, ends⟩, zone, h⟩ := Option.bind_eq_some_iff.1 h
  have minutes : offset % 60 = 0 := by
    unfold readInternet?.zone at zone
    split at zone
    · obtain ⟨rfl, -⟩ := Prod.mk.inj (Option.some.inj zone)
      rfl
    · obtain ⟨rfl, -⟩ := Prod.mk.inj (Option.some.inj zone)
      rfl
    · exact readOffset?_minutes zone
  dsimp only at h
  split at h
  · cases h
  · exact DateParts.Fine.offsetTime? ⟨readFraction?_lt fraction, minutes⟩ h

namespace DateLiteral

/-- **What a literal denotes** is regular. -/
theorem regular_of_read? {text : String} {d : DateLiteral} (h : read? text = some d) :
    d.universal.Regular := by
  unfold read? at h
  dsimp only at h
  split at h
  · obtain ⟨t, read, rfl⟩ := Option.map_eq_some_iff.1 h
    unfold readZoned? at read
    split at read
    · next internet =>
      obtain rfl := Option.some.inj read
      exact regular_of_readInternet? internet
    · obtain ⟨form, -, found⟩ := List.exists_of_findSome?_eq_some read
      obtain ⟨parts, read, made⟩ := Option.bind_eq_some_iff.1 found
      exact (DateForm.fine_read? read).offsetTime? made
  · obtain ⟨t, read, rfl⟩ := Option.map_eq_some_iff.1 h
    unfold readWall? at read
    split at read
    · next timed =>
      obtain rfl := Option.some.inj read
      obtain ⟨form, -, found⟩ := List.exists_of_findSome?_eq_some timed
      obtain ⟨parts, read, made⟩ := Option.bind_eq_some_iff.1 found
      exact (DateForm.fine_read? read).time? made
    · obtain ⟨date, -, rfl⟩ := Option.map_eq_some_iff.1 read
      exact .inl (by decide : 0 < nanosPerSecond)

/-- **A literal in universal time** denotes what the literal denotes, to the millisecond, and stays
as it is from then on. -/
theorem read?_canonical_of_read? {text : String} {d : DateLiteral} (h : read? text = some d)
    (low : 0 ≤ d.universal.date.year) (high : d.universal.date.year ≤ 9999) :
    read? d.canonical = some (.zoned (.ofUniversal d.universal.toMillis)) :=
  read?_canonical (regular_of_read? h) low high

end DateLiteral

end RecordQuery
