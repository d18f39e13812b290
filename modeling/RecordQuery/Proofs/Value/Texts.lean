import RecordQuery.Proofs.Calendar.Texts
import RecordQuery.Proofs.Number.Texts
import RecordQuery.Proofs.Value.Integers

/-!
# Values told apart by their texts

Two values of one form have the same text exactly if they are equal and noted alike. Where a value
can be noted in more than one way, its text is that of the notation.

* `Guid.display_inj`: texts tell identifiers apart;
* `EnumDescriptor.NamesApart`: the names of an enumeration tell numbers apart;
* `Value.SameForm`: two values other than null of one form, whose texts leave nothing out;
* `Value.SameNotation`: decimals of one scale, binary numbers of one sign, clocks of one offset;
* `Value.SameForm.display_eq_iff`: the texts are the same exactly if the values are equal and noted
  alike.
-/

namespace RecordQuery

/-! ## Identifiers -/

namespace Guid

theorem digitChar_inj : ∀ m < 16, ∀ n < 16, Nat.digitChar m = Nat.digitChar n → m = n := by decide

theorem digitChar_ne_dash : ∀ n < 16, Nat.digitChar n ≠ '-' := by decide

theorem notMem_hexDigitsReverse (count n : ℕ) : '-' ∉ hexDigitsReverse count n := by
  induction count generalizing n with
  | zero => exact List.not_mem_nil
  | succ count ih =>
    rw [hexDigitsReverse, List.mem_cons, not_or]
    exact ⟨(digitChar_ne_dash _ (Nat.mod_lt _ (by decide))).symm, ih _⟩

/-- As many digits as are written tell numbers apart. -/
theorem hexDigitsReverse_inj {count m n : ℕ} (hm : m < 16 ^ count) (hn : n < 16 ^ count)
    (h : hexDigitsReverse count m = hexDigitsReverse count n) : m = n := by
  induction count generalizing m n with
  | zero =>
    rw [Nat.pow_zero] at hm hn
    omega
  | succ count ih =>
    obtain ⟨last, rest⟩ := List.cons.inj h
    have digit : m % 16 = n % 16 :=
      digitChar_inj _ (Nat.mod_lt _ (by decide)) _ (Nat.mod_lt _ (by decide)) last
    rw [Nat.pow_succ] at hm hn
    have front : m / 16 = n / 16 :=
      ih ((Nat.div_lt_iff_lt_mul (by decide)).2 hm) ((Nat.div_lt_iff_lt_mul (by decide)).2 hn) rest
    omega

/-- The digits are what is left of the groups without their dashes. -/
theorem filter_group {digits : List Char} (h : '-' ∉ digits) :
    (group digits).filter (· ≠ '-') = digits := by
  have kept (cs : List Char) (sub : cs ⊆ digits) : cs.filter (· ≠ '-') = cs := by
    refine List.filter_eq_self.2 fun c mem => ?_
    have other : c ≠ '-' := fun dash => h (dash ▸ sub mem)
    simpa using other
  have dash (cs : List Char) : ('-' :: cs).filter (· ≠ '-') = cs.filter (· ≠ '-') :=
    List.filter_cons_of_neg (by simp)
  have part (k : ℕ) : ((digits.drop k).take 4).filter (· ≠ '-') = (digits.drop k).take 4 :=
    kept _ fun _ mem => List.mem_of_mem_drop (List.mem_of_mem_take mem)
  have join (k : ℕ) : (digits.drop k).take 4 ++ digits.drop (k + 4) = digits.drop k := by
    rw [← List.drop_drop, List.take_append_drop]
  rw [group]
  simp only [List.filter_append, dash, part, kept _ (List.take_subset 8 digits),
    kept _ (List.drop_subset 20 digits), List.append_assoc]
  rw [join 16, join 12, join 8, List.take_append_drop]

/-- **The texts of identifiers** tell them apart. -/
theorem display_inj {g k : Guid} (h : g.display = k.display) : g = k := by
  have digits (own : Guid) : '-' ∉ (hexDigitsReverse 32 own.bits.toNat).reverse := fun mem =>
    notMem_hexDigitsReverse _ _ (List.mem_reverse.1 mem)
  have numbers : hexDigitsReverse 32 g.bits.toNat = hexDigitsReverse 32 k.bits.toNat := by
    rw [← List.reverse_inj, ← filter_group (digits g), String.ofList_injective h,
      filter_group (digits k)]
  have bits : g.bits = k.bits :=
    BitVec.toNat_inj.1 (hexDigitsReverse_inj g.bits.isLt k.bits.isLt numbers)
  cases g
  cases k
  cases bits
  rfl

end Guid

/-! ## Enumerations -/

/-- The names of an enumeration tell numbers apart: members that share a name share a number, and no
name is a numeral. -/
structure EnumDescriptor.NamesApart (d : EnumDescriptor) : Prop where
  members : ∀ m ∈ d.members, ∀ n ∈ d.members, m.displayName = n.displayName → m.value = n.value
  numerals : ∀ m ∈ d.members, ∀ n : Int64, m.displayName ≠ intText n.toInt

theorem EnumDescriptor.byValue_spec {d : EnumDescriptor} {n : Int64} {m : EnumMember}
    (h : d.byValue n = some m) : m ∈ d.members ∧ m.value = n :=
  ⟨List.mem_of_find?_eq_some h, by simpa using List.find?_some h⟩

theorem EnumDescriptor.NamesApart.enumText_inj {d : EnumDescriptor} (apart : d.NamesApart)
    {a b : Int64} (h : Value.enumText d a = Value.enumText d b) : a = b := by
  unfold Value.enumText at h
  split at h
  · next m named =>
    obtain ⟨mem, rfl⟩ := byValue_spec named
    split at h
    · next n named' =>
      obtain ⟨mem', rfl⟩ := byValue_spec named'
      exact apart.members m mem n mem' h
    · exact absurd h (apart.numerals m mem _)
  · split at h
    · next n named' =>
      obtain ⟨mem', rfl⟩ := byValue_spec named'
      exact absurd h.symm (apart.numerals n mem' _)
    · exact Int64.toInt_inj.1 (intText_inj.1 h)

/-! ## Values -/

namespace Value

/-- Two values other than null of one form, whose texts leave nothing out. Integers of all widths
are one form. -/
inductive SameForm : Value → Value → Prop
  | bool (a b : Bool) : SameForm (.bool a) (.bool b)
  | integer {v w : Value} {m n : Int64} : v.toInt? = some m → w.toInt? = some n → SameForm v w
  | float32 {x y : Single} : x ≠ .nan → y ≠ .nan → SameForm (.float32 x) (.float32 y)
  | float64 {x y : Double} : x ≠ .nan → y ≠ .nan → SameForm (.float64 x) (.float64 y)
  | decimal (d e : Decimal) : SameForm (.decimal d) (.decimal e)
  | string (s t : String) : SameForm (.string s) (.string t)
  | guid (g k : Guid) : SameForm (.guid g) (.guid k)
  | dateTime {s t : LocalDateTime} : s.Regular → t.Regular → SameForm (.dateTime s) (.dateTime t)
  | dateTimeOffset {s t : OffsetDateTime} :
    s.Regular → t.Regular → SameForm (.dateTimeOffset s) (.dateTimeOffset t)
  /-- Numbers of an enumeration whose names tell them apart. -/
  | enum {d : EnumDescriptor} (a b : Int64) : d.NamesApart → SameForm (.enum d a) (.enum d b)

/-- Whether two values of one form are noted alike. -/
def SameNotation : Value → Value → Prop
  | .float32 x, .float32 y => x.isNegative = y.isNegative
  | .float64 x, .float64 y => x.isNegative = y.isNegative
  | .decimal d, .decimal e => d.scale = e.scale ∧ d.negative = e.negative
  | .dateTimeOffset s, .dateTimeOffset t => s.offset = t.offset
  | _, _ => True

theorem beq_some_eq_iff {o : Ordering} : (some o == some .eq) = true ↔ o = .eq := by
  cases o <;> decide

variable {v w : Value}

theorem SameForm.isNull (form : SameForm v w) : v.isNull = false ∧ w.isNull = false := by
  cases form with
  | integer hv hw => exact ⟨isNull_of_toInt? hv, isNull_of_toInt? hw⟩
  | _ => exact ⟨rfl, rfl⟩

theorem SameForm.tag_eq (form : SameForm v w) : v.tag = w.tag := by
  cases form with
  | integer hv hw => cases v <;> cases hv <;> cases w <;> cases hw <;> rfl
  | _ => rfl

/-- The texts of values that are noted in one way, where order and text tell them apart. -/
theorem display_eq_iff_of_compare {α : Type} {a b : α} {o : Ordering}
    (alike : v.SameNotation w) (equal : v.looselyEqual w = (some o == some .eq))
    (order : o = .eq ↔ a = b) (text : v.display = w.display ↔ a = b) :
    v.display = w.display ↔ v.looselyEqual w = true ∧ v.SameNotation w := by
  rw [equal, beq_some_eq_iff, order, text]
  exact (and_iff_left alike).symm

/-- **Values of one form** have the same text exactly if they are equal and noted alike. -/
theorem SameForm.display_eq_iff (form : SameForm v w) :
    v.display = w.display ↔ v.looselyEqual w = true ∧ v.SameNotation w := by
  cases form with
  | bool a b =>
    refine display_eq_iff_of_compare (a := a) (b := b) trivial rfl ?_ ?_
    · cases a <;> cases b <;> decide
    · cases a <;> cases b <;> simp [display]
  | @integer _ _ m n hv hw =>
    have alike : v.SameNotation w := by
      cases v <;> cases hv <;> cases w <;> cases hw <;> exact trivial
    refine display_eq_iff_of_compare (a := m) (b := n) alike (looselyEqual_of_toInt? hv hw) ?_ ?_
    · rw [Int.compare_eq_eq, Int64.toInt_inj]
    · rw [display_of_toInt? hv, display_of_toInt? hw, intText_inj, Int64.toInt_inj]
  | @float32 x y hx hy =>
    have equal : looselyEqual (.float32 x) (.float32 y) =
        ((x.convert .double).compare? (y.convert .double) == some .eq) := rfl
    have text : display (.float32 x) = display (.float32 y) ↔ x = y :=
      ⟨Binary.display_inj Format.fewDigits_single, fun same => same ▸ rfl⟩
    have alike : SameNotation (.float32 x) (.float32 y) ↔
        (x.convert .double).isNegative = (y.convert .double).isNegative := by
      rw [Binary.isNegative_convert, Binary.isNegative_convert]
      rfl
    rw [equal, beq_iff_eq, text, alike, ← Binary.eq_iff_compare? (Binary.convert_ne_nan .double hx)
      (Binary.convert_ne_nan .double hy)]
    exact ⟨fun same => same ▸ rfl, Binary.convert_single_inj⟩
  | @float64 x y hx hy =>
    have equal : looselyEqual (.float64 x) (.float64 y) = (x.compare? y == some .eq) := rfl
    have text : display (.float64 x) = display (.float64 y) ↔ x = y :=
      ⟨Binary.display_inj Format.fewDigits_double, fun same => same ▸ rfl⟩
    rw [equal, beq_iff_eq, text]
    exact Binary.eq_iff_compare? hx hy
  | decimal d e =>
    have equal : looselyEqual (.decimal d) (.decimal e) = (some (d.compare e) == some .eq) := rfl
    have text : display (.decimal d) = display (.decimal e) ↔ d = e :=
      ⟨Decimal.display_inj, fun same => same ▸ rfl⟩
    rw [equal, beq_some_eq_iff, text]
    exact Decimal.eq_iff_compare
  | string s t =>
    exact display_eq_iff_of_compare (a := s) (b := t) trivial rfl Std.compare_eq_iff_eq Iff.rfl
  | guid g k =>
    refine display_eq_iff_of_compare (a := g) (b := k) trivial rfl ?_ ?_
    · rw [Nat.compare_eq_eq, BitVec.toNat_inj, Guid.mk.injEq]
    · exact ⟨Guid.display_inj, fun same => same ▸ rfl⟩
  | @dateTime s t hs ht =>
    refine display_eq_iff_of_compare (a := s) (b := t) trivial rfl LocalDateTime.compare_eq_eq ?_
    exact ⟨fun same => LocalDateTime.displayDigits_inj hs ht (String.ofList_injective same),
      fun same => same ▸ rfl⟩
  | @dateTimeOffset s t hs ht =>
    have equal : looselyEqual (.dateTimeOffset s) (.dateTimeOffset t) =
        (some (s.instant.compare t.instant) == some .eq) := rfl
    have text : display (.dateTimeOffset s) = display (.dateTimeOffset t) ↔ s = t :=
      ⟨fun same => OffsetDateTime.displayDigits_inj hs ht (String.ofList_injective same),
        fun same => same ▸ rfl⟩
    rw [equal, beq_some_eq_iff, text]
    exact OffsetDateTime.eq_iff_compare
  | @enum d a b apart =>
    refine display_eq_iff_of_compare (a := a) (b := b) trivial rfl ?_ ?_
    · rw [Int.compare_eq_eq, Int64.toInt_inj]
    · exact ⟨apart.enumText_inj, fun same => same ▸ rfl⟩

end Value

end RecordQuery
