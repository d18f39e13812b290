import RecordQuery.Value.Kind

/-!
# Widening numeric kinds

Widening gives two numeric kinds the narrowest kind that holds the values of both. The kinds are not
a chain, since numbers of 32 bits meet integers of 32 or 64 bits at 64 bits, but they are a
semilattice: it does not count in which order kinds are widened, or how often one of them comes.

* `FieldKind.WidensInto` is the order, with `FieldKind.widen_widensInto_iff` for upper bounds;
* `FieldKind.IsJoin` is the narrowest kind into which given kinds widen, of which there is at most
  one (`FieldKind.IsJoin.unique`);
* `FieldKind.isJoin_foldl`: widening kinds one by one arrives there;
* `FieldKind.widenAll` widens the kinds of a list.
-/

namespace RecordQuery.FieldKind

/-! ## The order -/

/-- The kinds of numbers. -/
def numbers : List FieldKind := [.int16, .int32, .int64, .float32, .float64, .decimal]

theorem mem_numbers {kind : FieldKind} : kind ∈ numbers ↔ kind.isNumeric = true := by
  cases kind <;> simp [numbers, isNumeric, width?]

/-- A kind holds the values of another one: widening that kind leads to it. -/
def WidensInto (a b : FieldKind) : Prop := a.widen b = b

instance (a b : FieldKind) : Decidable (a.WidensInto b) := inferInstanceAs (Decidable (_ = _))

variable {a b c : FieldKind}

theorem widen_self (kind : FieldKind) : kind.widen kind = kind := by
  cases kind <;> rfl

theorem widensInto_refl (kind : FieldKind) : kind.WidensInto kind := widen_self kind

/-- A kind that is not numeric stays as it is. -/
theorem widen_of_not_numeric (h : a.isNumeric = false) (b : FieldKind) : a.widen b = a := by
  cases a <;> first | rfl | cases h

/-- Nothing is widened by a kind that is not numeric. -/
theorem widen_not_numeric (a : FieldKind) (h : b.isNumeric = false) : a.widen b = a := by
  cases b with
  | int16 | int32 | int64 | float32 | float64 | decimal => cases h
  | _ => cases a <;> rfl

theorem isNumeric_widen (ha : a.isNumeric = true) (b : FieldKind) :
    (a.widen b).isNumeric = true := by
  by_cases hb : b.isNumeric = true
  · have all : ∀ a ∈ numbers, ∀ b ∈ numbers, (a.widen b).isNumeric = true := by decide
    exact all a (mem_numbers.2 ha) b (mem_numbers.2 hb)
  · rw [widen_not_numeric a (Bool.eq_false_iff.2 hb)]
    exact ha

theorem widen_comm (ha : a.isNumeric = true) (hb : b.isNumeric = true) :
    a.widen b = b.widen a := by
  have all : ∀ a ∈ numbers, ∀ b ∈ numbers, a.widen b = b.widen a := by decide
  exact all a (mem_numbers.2 ha) b (mem_numbers.2 hb)

/-- Upper bounds of two numeric kinds are those of the kind to which they are widened. -/
theorem widen_widensInto_iff (ha : a.isNumeric = true) (hb : b.isNumeric = true)
    (hc : c.isNumeric = true) :
    (a.widen b).WidensInto c ↔ a.WidensInto c ∧ b.WidensInto c := by
  have all : ∀ a ∈ numbers, ∀ b ∈ numbers, ∀ c ∈ numbers,
      (a.widen b).WidensInto c ↔ a.WidensInto c ∧ b.WidensInto c := by decide
  exact all a (mem_numbers.2 ha) b (mem_numbers.2 hb) c (mem_numbers.2 hc)

/-! ## The join of a list -/

/-- The narrowest numeric kind into which all kinds of a list widen. -/
structure IsJoin (join : FieldKind) (kinds : List FieldKind) : Prop where
  isNumeric : join.isNumeric = true
  widensInto : ∀ kind ∈ kinds, kind.WidensInto join
  least : ∀ bound, bound.isNumeric = true → (∀ kind ∈ kinds, kind.WidensInto bound) →
    join.WidensInto bound

namespace IsJoin

variable {join other : FieldKind} {kinds kinds' : List FieldKind}

theorem unique (h : join.IsJoin kinds) (h' : other.IsJoin kinds) : join = other := by
  have up : join.widen other = other := h.least other h'.isNumeric h'.widensInto
  have down : other.widen join = join := h'.least join h.isNumeric h.widensInto
  rw [← up, widen_comm h.isNumeric h'.isNumeric, down]

/-- Only membership counts. -/
theorem congr (h : join.IsJoin kinds) (same : ∀ kind, kind ∈ kinds ↔ kind ∈ kinds') :
    join.IsJoin kinds' :=
  ⟨h.isNumeric, fun kind mem => h.widensInto kind ((same kind).2 mem),
    fun bound numeric bounds => h.least bound numeric fun kind mem =>
      bounds kind ((same kind).1 mem)⟩

/-- Two kinds and the kind to which they are widened have the same join with other kinds. -/
theorem of_widen (ha : a.isNumeric = true) (hb : b.isNumeric = true)
    (h : join.IsJoin (a.widen b :: kinds)) : join.IsJoin (a :: b :: kinds) := by
  have bounds {bound : FieldKind} (numeric : bound.isNumeric = true) :=
    widen_widensInto_iff (c := bound) ha hb numeric
  obtain ⟨first, rest⟩ := List.forall_mem_cons.1 h.widensInto
  obtain ⟨left, right⟩ := (bounds h.isNumeric).1 first
  refine ⟨h.isNumeric, ?_, fun bound numeric all => ?_⟩
  · exact List.forall_mem_cons.2 ⟨left, List.forall_mem_cons.2 ⟨right, rest⟩⟩
  · obtain ⟨left, all⟩ := List.forall_mem_cons.1 all
    obtain ⟨right, all⟩ := List.forall_mem_cons.1 all
    exact h.least bound numeric
      (List.forall_mem_cons.2 ⟨(bounds numeric).2 ⟨left, right⟩, all⟩)

end IsJoin

/-- **Widening numeric kinds one by one** arrives at their join. -/
theorem isJoin_foldl {start : FieldKind} {kinds : List FieldKind}
    (first : start.isNumeric = true) (numeric : ∀ kind ∈ kinds, kind.isNumeric = true) :
    (kinds.foldl widen start).IsJoin (start :: kinds) := by
  induction kinds generalizing start with
  | nil =>
    refine ⟨first, fun kind mem => ?_, fun bound _ bounds => bounds start List.mem_cons_self⟩
    obtain rfl := List.mem_singleton.1 mem
    exact widensInto_refl kind
  | cons kind kinds ih =>
    obtain ⟨own, rest⟩ := List.forall_mem_cons.1 numeric
    exact (ih (isNumeric_widen first kind) rest).of_widen first own

/-- Widening by kinds never leaves a kind that is not numeric. -/
theorem foldl_widen_of_not_numeric {start : FieldKind} (h : start.isNumeric = false)
    (kinds : List FieldKind) : kinds.foldl widen start = start := by
  induction kinds with
  | nil => rfl
  | cons kind kinds ih => rw [List.foldl_cons, widen_of_not_numeric h, ih]

/-- Widening a kind by itself, however often, changes nothing. -/
theorem foldl_widen_self {kind : FieldKind} {kinds : List FieldKind}
    (one : ∀ seen ∈ kinds, seen = kind) : kinds.foldl widen kind = kind := by
  induction kinds with
  | nil => rfl
  | cons seen kinds ih =>
    obtain ⟨rfl, rest⟩ := List.forall_mem_cons.1 one
    rw [List.foldl_cons, widen_self, ih rest]

/-- The kind to which the kinds of a list are widened, one after the other. Of no kinds, nothing is
known. -/
def widenAll : List FieldKind → FieldKind
  | [] => .unknown
  | kind :: kinds => kinds.foldl widen kind

/-- Numeric kinds are widened to their join. -/
theorem isJoin_widenAll {kinds : List FieldKind} (some : kinds ≠ [])
    (numeric : ∀ kind ∈ kinds, kind.isNumeric = true) : (widenAll kinds).IsJoin kinds := by
  cases kinds with
  | nil => exact absurd rfl some
  | cons kind kinds =>
    obtain ⟨own, rest⟩ := List.forall_mem_cons.1 numeric
    exact isJoin_foldl own rest

/-- One kind stays as it is. -/
theorem widenAll_of_one {kind : FieldKind} {kinds : List FieldKind} (some : kinds ≠ [])
    (one : ∀ seen ∈ kinds, seen = kind) : widenAll kinds = kind := by
  cases kinds with
  | nil => exact absurd rfl some
  | cons seen kinds =>
    obtain ⟨rfl, rest⟩ := List.forall_mem_cons.1 one
    exact foldl_widen_self rest

end RecordQuery.FieldKind
