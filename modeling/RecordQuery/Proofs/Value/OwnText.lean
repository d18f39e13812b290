import RecordQuery.Proofs.Calendar.Shown
import RecordQuery.Proofs.Filter.OwnValue
import RecordQuery.Proofs.Value.ReadBack
import RecordQuery.Proofs.Value.Texts

/-!
# Values from their own texts

A truth, an integer, a decimal or a GUID that was made a text is fitted to its own kind again, with
the decimals it had. So is a number of an enumeration if the names of its members can be told apart
and are no numerals; the number need not be that of a member, and members may share one. A date
keeps the clock that its text shows and its offset, and its text in universal time stays as it is
when it is read and written again.

* `EnumDescriptor.NamesReadable` and `EnumDescriptor.resolve?_enumText`: the texts of an
  enumeration;
* `coerce_display`: what the text of a value is fitted to;
* `coerce_display_of_wall`, `coerce_display_of_clock` and `normalizeDate_normalizeDate`: the texts
  of dates.
-/

namespace RecordQuery

open Text

/-! ## Enumerations -/

/-- The names of an enumeration can be read: those for the outside are different and stand without
white space, and no name is a numeral. -/
structure EnumDescriptor.NamesReadable (d : EnumDescriptor) : Prop where
  different : (d.members.map (·.displayName)).Nodup
  some : ∀ m ∈ d.members, m.displayName ≠ ""
  trimmed : ∀ m ∈ d.members, trim m.displayName.toList = m.displayName.toList
  words : ∀ m ∈ d.members, (readInt? m.displayName.toList).bind int64? = none ∧
    (readInt? m.name.toList).bind int64? = none

namespace EnumDescriptor.NamesReadable

variable {d : EnumDescriptor} {m : EnumMember}

/-- A member is found by its name. -/
theorem lookup_displayName (h : d.NamesReadable) (mem : m ∈ d.members) :
    d.lookup m.displayName = Option.some m := by
  obtain ⟨found, named⟩ : ∃ found, d.lookup m.displayName = Option.some found :=
    Option.isSome_iff_exists.1 (List.find?_isSome.2 ⟨m, mem, decide_eq_true rfl⟩)
  have same : found.displayName = m.displayName := by simpa using List.find?_some named
  rw [named, List.inj_on_of_nodup_map h.different (List.mem_of_find?_eq_some named) mem same]

/-- **A text of an enumeration names its number.** -/
theorem resolve?_enumText (h : d.NamesReadable) (n : Int64) :
    d.resolve? (Value.enumText d n) = Option.some n := by
  unfold Value.enumText
  split
  · next m named =>
    obtain ⟨mem, rfl⟩ := byValue_spec named
    rw [resolve?, h.trimmed m mem, String.ofList_toList, h.lookup_displayName mem]
  · have read : (readInt? (intText n.toInt).toList).bind int64? = Option.some n := by
      rw [readInt?_intText]
      exact int64?_eq_some.2 rfl
    -- no member has a numeral for its name
    have outside : d.lookup (intText n.toInt) = none := List.find?_eq_none.2 fun m mem same => by
      have word := (h.words m mem).1
      rw [of_decide_eq_true same, read] at word
      cases word
    have inside : d.byName (intText n.toInt) = none := List.find?_eq_none.2 fun m mem same => by
      have word := (h.words m mem).2
      rw [of_decide_eq_true same, read] at word
      cases word
    simp only [resolve?, trim_intDigits, String.ofList_toList, outside, inside, read]

theorem enumText_ne_empty (h : d.NamesReadable) (n : Int64) : Value.enumText d n ≠ "" := by
  unfold Value.enumText
  split
  · next m named => exact h.some m (byValue_spec named).1
  · exact intText_ne_empty _

end EnumDescriptor.NamesReadable

/-! ## Values -/

namespace Decimal

theorem position_plainZero (d : Decimal) : d.plainZero.position = d.position := by
  rcases Nat.eq_zero_or_pos d.mantissa with none | some
  · simp only [position, plainZero, none, Nat.zero_mul]
    cases d.negative <;> rfl
  · rw [plainZero_of_canonical fun none => absurd none some.ne']

end Decimal

namespace Value

/-- Values that their texts give back: truths, integers, decimals, GUIDs, and numbers of an
enumeration with readable names. -/
def HasOwnText : Value → Prop
  | .bool _ | .int16 _ | .int32 _ | .int64 _ | .decimal _ | .guid _ => True
  | .enum d _ => d.NamesReadable
  | _ => False

/-- The number of decimals that a decimal is noted with. -/
def scale? : Value → Option Nat
  | .decimal d => some d.scale
  | _ => none

end Value

variable {v : Value} {kind : FieldKind}

theorem coerce_string {text : String} (some : standsForNull (.string text) kind = false)
    (other : kind ≠ .string) : coerce (.string text) (.of kind) = coerceTo (.string text) kind := by
  have kept : ¬ (Value.string text).kind? = Option.some kind := fun same =>
    other (Option.some.inj same).symm
  have own : (TypeInfo.of kind).kind = kind := rfl
  rw [coerce, own, some, if_neg Bool.false_ne_true, if_neg kept]

/-- **A value is restored from its text**: what the text is fitted to equals the value and has as
many decimals. It is the value itself, but for a decimal zero with a sign. -/
theorem coerce_display (own : v.kind? = some kind) (text : v.HasOwnText) :
    ∃ w, coerce (.string v.display) (.of kind) = .ok w ∧ w.same v = true ∧ w.scale? = v.scale? ∧
      (v.Legible → w = v) := by
  have restored (fitted : coerce (.string v.display) (.of kind) = .ok v) :
      ∃ w, coerce (.string v.display) (.of kind) = .ok w ∧ w.same v = true ∧ w.scale? = v.scale? ∧
        (v.Legible → w = v) := by
    refine ⟨v, fitted, Value.same_self (.leaf ?_ ?_), rfl, fun _ => rfl⟩
    · cases v <;> first | rfl | exact text.elim
    · cases v <;> first | rfl | exact text.elim
  have plain (named : kind.descriptor? = none) (other : kind ≠ .string)
      (single : v.isContainer = false) (legible : v.Legible) : coerce (.string v.display)
        (.of kind) = .ok v :=
    (coerce_string (standsForNull_display own named) other).trans
      (coerceTo_display own single named legible)
  cases v with
  | bool _ | int16 _ | int32 _ | int64 _ | guid _ =>
    cases own
    exact restored (plain rfl (by simp) rfl trivial)
  | decimal d =>
    cases own
    refine ⟨.decimal d.plainZero, ?_, ?_, rfl, fun legible => ?_⟩
    · have fitted : coerceTo (.string d.display) .decimal = .ok (.decimal d.plainZero) := by
        rw [coerceTo, coerceNumber, toNumber?, readNumeral?, d.trim_display, d.read?_display_eq]
        rfl
      exact (coerce_string (standsForNull_display (w := .decimal d) rfl rfl) (by simp)).trans fitted
    · rw [Value.same, d.position_plainZero, beq_self_eq_true]
    · rw [Decimal.plainZero_of_canonical legible]
  | enum d n =>
    cases own
    have some : standsForNull (.string (Value.enumText d n)) (.enum d) = false := by
      simp [standsForNull, text.enumText_ne_empty n]
    have fitted : coerceTo (.string (Value.enumText d n)) (.enum d) = .ok (.enum d n) := by
      rw [coerceTo, coerceEnum, resolveEnum?, text.resolve?_enumText n]
    exact restored ((coerce_string some (by simp)).trans fitted)
  | null | float32 x | float64 x | string s | dateTime t | dateTimeOffset t | list items
  | object fields => exact text.elim

/-- A number that no member has, in an enumeration of which two members share a number. -/
theorem coerce_display_of_stages :
    let stages : EnumDescriptor :=
      ⟨"Stage", [⟨"Draft", some "To be done", 1⟩, ⟨"Open", none, 1⟩, ⟨"Closed", none, 2⟩]⟩
    ∃ w, coerce (.string (Value.enum stages 7).display) (.of (.enum stages)) = .ok w ∧
      w.same (.enum stages 7) = true ∧ w.scale? = none ∧ w = .enum stages 7 := by
  intro stages
  have readable : stages.NamesReadable := by
    constructor <;> decide
  obtain ⟨w, fitted, same, scale, equal⟩ := coerce_display (v := .enum stages 7) rfl readable
  exact ⟨w, fitted, same, scale, equal trivial⟩

/-! ## Dates -/

/-- A date is restored from its text, and normalized to its text in universal time. -/
theorem coerce_display_of_date (own : v.kind? = some kind) (date : kind.isDate = true)
    (legible : v.Legible) :
    coerce (.string v.display) (.of kind) = .ok v ∧
      ∃ text, v.canonicalDate? = some text ∧ normalizeDate v.display = .ok text := by
  have fitted (named : kind.descriptor? = none) (other : kind ≠ .string)
      (single : v.isContainer = false) : coerce (.string v.display) (.of kind) = .ok v :=
    (coerce_string (standsForNull_display own named) other).trans
      (coerceTo_display own single named legible)
  cases v with
  | dateTime t =>
    cases own
    refine ⟨fitted rfl (by simp) rfl, t.canonical, rfl, ?_⟩
    rw [Value.display, normalizeDate, DateLiteral.read?_wall legible]
    rfl
  | dateTimeOffset t =>
    cases own
    refine ⟨fitted rfl (by simp) rfl, t.canonical, rfl, ?_⟩
    rw [Value.display, normalizeDate, DateLiteral.read?_zoned legible]
    rfl
  | _ => cases own <;> cases date

/-- The text of a time gives back the time that it shows. -/
theorem coerce_display_of_wall (t : LocalDateTime) :
    coerce (.string (Value.dateTime t).display) (.of .dateTime) = .ok (.dateTime t.carried) ∧
      ∃ text, (Value.dateTime t).canonicalDate? = some text ∧
        normalizeDate (Value.dateTime t).display = .ok text := by
  have shown : (Value.dateTime t.carried).display = (Value.dateTime t).display :=
    t.display_carried
  have universal : (Value.dateTime t.carried).canonicalDate? = (Value.dateTime t).canonicalDate? :=
    congrArg some t.canonical_carried
  have restored := coerce_display_of_date (v := .dateTime t.carried) rfl rfl t.regular_carried
  rwa [shown, universal] at restored

/-- The text of a clock that is ahead by whole minutes gives back what it shows. -/
theorem coerce_display_of_clock {t : OffsetDateTime} (whole : t.offset % 60 = 0)
    (lt_day : t.offset.natAbs < secondsPerDay) :
    coerce (.string (Value.dateTimeOffset t).display) (.of .dateTimeOffset) =
        .ok (.dateTimeOffset (t.carried whole)) ∧
      ∃ text, (Value.dateTimeOffset t).canonicalDate? = some text ∧
        normalizeDate (Value.dateTimeOffset t).display = .ok text := by
  have shown : (Value.dateTimeOffset (t.carried whole)).display =
      (Value.dateTimeOffset t).display := OffsetDateTime.display_carried whole
  have universal : (Value.dateTimeOffset (t.carried whole)).canonicalDate? =
      (Value.dateTimeOffset t).canonicalDate? :=
    congrArg some (OffsetDateTime.canonical_carried whole)
  have restored := coerce_display_of_date (v := .dateTimeOffset (t.carried whole)) rfl rfl
    ⟨t.wall.regular_carried, whole, lt_day⟩
  rwa [shown, universal] at restored

/-- Normalizing twice is normalizing once, and keeps the instant to the millisecond. -/
theorem normalizeDate_normalizeDate {text : String} {d : DateLiteral}
    (read : DateLiteral.read? text = some d) (low : 0 ≤ d.universal.date.year)
    (high : d.universal.date.year ≤ 9999) :
    normalizeDate text = .ok d.canonical ∧ normalizeDate d.canonical = .ok d.canonical ∧
      ∃ t, DateLiteral.read? d.canonical = some (.zoned t) ∧ t.offset = 0 ∧
        t.instant = d.universal.toMillis := by
  have again := DateLiteral.read?_canonical_of_read? read low high
  refine ⟨by rw [normalizeDate, read], ?_, _, again, rfl, rfl⟩
  have same : DateLiteral.canonical (.zoned (.ofUniversal d.universal.toMillis)) = d.canonical :=
    d.universal.canonical_toMillis
  rw [normalizeDate, again]
  exact congrArg Except.ok same

/-- **Dates and their texts.** A time, and a clock that is ahead by whole minutes, is restored from
its text as the text shows it: as it was, unless a leap second stands behind another second than 59,
which is shown as the second after it. The text is normalized to that of the date in universal time.
Normalizing a text of any form once more changes nothing, and the result denotes the instant to the
millisecond, if that is in the years 0 to 9999. -/
theorem dates_of_texts :
    (∀ t : LocalDateTime,
      coerce (.string (Value.dateTime t).display) (.of .dateTime) = .ok (.dateTime t.carried) ∧
        (t.carried = t ↔ t.Regular) ∧
        ∃ text, (Value.dateTime t).canonicalDate? = some text ∧
          normalizeDate (Value.dateTime t).display = .ok text) ∧
    (∀ (t : OffsetDateTime) (whole : t.offset % 60 = 0), t.offset.natAbs < secondsPerDay →
      coerce (.string (Value.dateTimeOffset t).display) (.of .dateTimeOffset) =
          .ok (.dateTimeOffset (t.carried whole)) ∧
        (t.carried whole = t ↔ t.wall.Regular) ∧
        ∃ text, (Value.dateTimeOffset t).canonicalDate? = some text ∧
          normalizeDate (Value.dateTimeOffset t).display = .ok text) ∧
    ∀ (text : String) (d : DateLiteral), DateLiteral.read? text = some d →
      0 ≤ d.universal.date.year → d.universal.date.year ≤ 9999 →
      normalizeDate text = .ok d.canonical ∧ normalizeDate d.canonical = .ok d.canonical ∧
        ∃ t, DateLiteral.read? d.canonical = some (.zoned t) ∧ t.offset = 0 ∧
          t.instant = d.universal.toMillis := by
  refine ⟨fun t => ?_, fun t whole lt_day => ?_, fun text d read low high => ?_⟩
  · obtain ⟨restored, normal⟩ := coerce_display_of_wall t
    exact ⟨restored, LocalDateTime.carried_eq_self_iff, normal⟩
  · obtain ⟨restored, normal⟩ := coerce_display_of_clock whole lt_day
    exact ⟨restored, OffsetDateTime.carried_eq_self_iff whole, normal⟩
  · exact normalizeDate_normalizeDate read low high

/-- A leap second on a clock that is ahead, and a time on the wall with the month in front. -/
theorem dates_of_texts_of_leap_second :
    let leap : OffsetDateTime := ⟨⟨⟨2017, 1, 1, by decide⟩, 7199, 1123456789, by decide, by decide⟩,
      7200, ⟨⟨2016, 12, 31, by decide⟩, 86399, 1123456789, by decide, by decide⟩, by decide⟩
    let wall : LocalDateTime := ⟨⟨2023, 8, 24, by decide⟩, 37200, 0, by decide, by decide⟩
    (coerce (.string (Value.dateTimeOffset leap).display) (.of .dateTimeOffset) =
        .ok (.dateTimeOffset leap) ∧
      ∃ text, (Value.dateTimeOffset leap).canonicalDate? = some text ∧
        normalizeDate (Value.dateTimeOffset leap).display = .ok text) ∧
    normalizeDate "8/24/2023 10:20" = .ok (DateLiteral.wall wall).canonical ∧
      normalizeDate (DateLiteral.wall wall).canonical = .ok (DateLiteral.wall wall).canonical ∧
        ∃ t, DateLiteral.read? (DateLiteral.wall wall).canonical = some (.zoned t) ∧ t.offset = 0 ∧
          t.instant = wall := by
  intro leap wall
  have minutes : leap.offset % 60 = 0 := rfl
  have regular : leap.wall.Regular := .inr (by decide : 7199 % 60 = 59)
  have read : DateLiteral.read? "8/24/2023 10:20" = some (.wall wall) := by decide +kernel
  have whole : wall.toMillis = wall := by decide
  obtain ⟨-, zoned, literal⟩ := dates_of_texts
  obtain ⟨restored, shown, normal⟩ := zoned leap minutes (by decide : 7200 < secondsPerDay)
  rw [shown.2 regular] at restored
  obtain ⟨once, twice, t, again, offset, instant⟩ := literal "8/24/2023 10:20" (.wall wall) read
    (by decide) (by decide)
  exact ⟨⟨restored, normal⟩, once, twice, t, again, offset, instant.trans whole⟩

/-- A leap second behind a second of 30 is not restored: its text gives back a second of 31, and a
time between the two tells them apart. -/
theorem dates_of_texts_not_of_late_leap_second :
    let day : Date := ⟨2023, 8, 24, by decide⟩
    let leap : LocalDateTime := ⟨day, 30, 1500000000, by decide, by decide⟩
    let next : LocalDateTime := ⟨day, 31, 500000000, by decide, by decide⟩
    let between : LocalDateTime := ⟨day, 31, 0, by decide, by decide⟩
    (Value.dateTime leap).display = "2023-08-24T00:00:31.500" ∧
      coerce (.string (Value.dateTime leap).display) (.of .dateTime) = .ok (.dateTime next) ∧
      coerce (.string (Value.dateTime leap).display) (.of .dateTime) ≠ .ok (.dateTime leap) ∧
      leap.compare between = .lt ∧ between.compare next = .lt := by
  intro day leap next between
  have shown : leap.carried = next := by decide
  have restored := (coerce_display_of_wall leap).1
  rw [shown] at restored
  have other : next ≠ leap := by decide
  refine ⟨by decide +kernel, restored, ?_, by decide, by decide⟩
  rw [restored]
  intro same
  exact other (Value.dateTime.inj (Except.ok.inj same))

end RecordQuery
