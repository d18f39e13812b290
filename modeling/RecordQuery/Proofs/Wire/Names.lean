import RecordQuery.Filter.Clause
import RecordQuery.Sort

/-!
# Names in requests

Operators, conditions and directions are given by words, in any case and with white space around
them.

* `Text.Spells`: a text is one of some words;
* `Operator.words`, `Joiner.words` and `SortDirection.words` are the words for each of them;
* `Operator.parse?_eq_some_iff`, `Joiner.parse?_eq_some_iff` and `SortDirection.parse?_eq_some_iff`:
  the readers know exactly these words;
* `Operator.parse_eq_ok_iff` and `SortDirection.parse_eq_ok_iff`: so do those that report errors.
-/

namespace RecordQuery

open Text

/-- A text is one of some words, up to the case of the letters A to Z and white space around it. -/
def Text.Spells (words : List String) (text : String) : Prop :=
  asciiLower (trimmed text) ∈ words

/-- The words for an operator. -/
def Operator.words : Operator → List String
  | .equals => ["equal", "equals"]
  | .notEquals => ["notequal", "notequals"]
  | .lessThan => ["lessthan"]
  | .lessThanOrEqual => ["lessthanorequal"]
  | .greaterThan => ["greaterthan"]
  | .greaterThanOrEqual => ["greaterthanorequal"]
  | .startsWith => ["startswith"]
  | .endsWith => ["endswith"]
  | .contains => ["contains"]

/-- The words for a joiner; nothing at all stands for `and`. -/
def Joiner.words : Joiner → List String
  | .and => ["", "and"]
  | .or => ["or"]

/-- The words for a direction; nothing at all stands for an ascending one. -/
def SortDirection.words : SortDirection → List String
  | .ascending => ["", "asc", "ascending"]
  | .descending => ["desc", "descending"]

theorem Operator.name_mem_words (op : Operator) : op.name ∈ op.words := by
  cases op <;> decide

theorem Operator.fullName_mem_words (op : Operator) : asciiLower op.fullName ∈ op.words := by
  cases op <;> decide

theorem Operator.parse?_eq_some_iff {text : String} {op : Operator} :
    parse? text = some op ↔ Spells op.words text := by
  unfold parse? Spells
  generalize asciiLower (trimmed text) = word
  constructor
  · intro found
    have named := List.find?_some found
    rw [Bool.or_eq_true, beq_iff_eq, beq_iff_eq] at named
    rcases named with rfl | rfl
    · exact op.name_mem_words
    · exact op.fullName_mem_words
  · intro mem
    cases op <;> simp only [words, List.mem_cons, List.not_mem_nil, or_false] at mem
    all_goals rcases mem with rfl | rfl <;> decide

theorem Operator.parse_eq_ok_iff {text : String} {field : Option String} {op : Operator} :
    parse text field = .ok op ↔ Spells op.words text := by
  rw [← parse?_eq_some_iff, parse]
  cases parse? text <;> simp

theorem Joiner.parse?_eq_some_iff {text : String} {joiner : Joiner} :
    parse? text = some joiner ↔ Spells joiner.words text := by
  unfold parse? Spells
  generalize asciiLower (trimmed text) = word
  constructor
  · intro found
    split at found <;> cases found <;> simp [words]
  · intro mem
    cases joiner <;> simp only [words, List.mem_cons, List.not_mem_nil, or_false] at mem
    · rcases mem with rfl | rfl <;> rfl
    · obtain rfl := mem
      rfl

theorem SortDirection.parse?_eq_some_iff {text : String} {direction : SortDirection} :
    parse? text = some direction ↔ Spells direction.words text := by
  unfold parse? Spells
  generalize asciiLower (trimmed text) = word
  constructor
  · intro found
    split at found <;> cases found <;> simp [words]
  · intro mem
    cases direction <;> simp only [words, List.mem_cons, List.not_mem_nil, or_false] at mem
    · rcases mem with rfl | rfl | rfl <;> rfl
    · rcases mem with rfl | rfl <;> rfl

theorem SortDirection.parse_eq_ok_iff {text : String} {field : Option String}
    {direction : SortDirection} :
    parse text field = .ok direction ↔ Spells direction.words text := by
  rw [← parse?_eq_some_iff, parse]
  cases parse? text <;> simp

end RecordQuery
