import RecordQuery.Text.Blank
import RecordQuery.Text.Split

/-!
# Parts of texts

A text stands at the front of another, at its end, or somewhere in it, if the other one can be cut
there.

* `startsWith_iff`, `endsWith_iff` and `contains_iff`: the cuts;
* `contains_of_startsWith` and `contains_of_endsWith`: the front and the end of a text are parts of
  it;
* `splitOn_join`: parts without a character come back from the text that has it between them, and
  `cut_append_cons` is where it first stands;
* `tokens` is what stands between white space, and `words_eq_tokens`: these are the words of a text.
-/

namespace RecordQuery.Text

variable {text part : String}

theorem occursIn_iff {part text : List Char} : occursIn part text = true ↔ part <:+: text := by
  induction text with
  | nil => simp [occursIn]
  | cons c cs ih =>
    rw [occursIn, Bool.or_eq_true, ih, List.isPrefixOf_iff_prefix, List.infix_cons_iff]

theorem startsWith_iff :
    startsWith text part = true ↔ ∃ after, text.toList = part.toList ++ after := by
  rw [startsWith, List.isPrefixOf_iff_prefix]
  exact exists_congr fun _ => eq_comm

theorem endsWith_iff :
    endsWith text part = true ↔ ∃ before, text.toList = before ++ part.toList := by
  rw [endsWith, List.isPrefixOf_iff_prefix, List.reverse_prefix]
  exact exists_congr fun _ => eq_comm

theorem contains_iff :
    contains text part = true ↔ ∃ before after, text.toList = before ++ part.toList ++ after := by
  rw [contains, occursIn_iff]
  exact exists_congr fun _ => exists_congr fun _ => eq_comm

theorem contains_of_startsWith (h : startsWith text part = true) : contains text part = true := by
  obtain ⟨after, cut⟩ := startsWith_iff.1 h
  exact contains_iff.2 ⟨[], after, cut⟩

theorem contains_of_endsWith (h : endsWith text part = true) : contains text part = true := by
  obtain ⟨before, cut⟩ := endsWith_iff.1 h
  exact contains_iff.2 ⟨before, [], cut.trans (List.append_nil _).symm⟩

theorem startsWith_self (s : String) : startsWith s s = true :=
  startsWith_iff.2 ⟨[], (List.append_nil _).symm⟩

theorem endsWith_self (s : String) : endsWith s s = true := endsWith_iff.2 ⟨[], rfl⟩

theorem contains_self (s : String) : contains s s = true := contains_of_endsWith (endsWith_self s)

/-! ## The empty text -/

/-- The empty text is the only part of itself. -/
theorem eq_empty_of_contains_empty (h : contains "" part = true) : part = "" := by
  obtain ⟨before, after, cut⟩ := contains_iff.1 h
  obtain ⟨front, -⟩ := List.append_eq_nil_iff.1 cut.symm
  exact String.toList_injective (List.append_eq_nil_iff.1 front).2

theorem contains_empty (h : part ≠ "") : contains "" part = false :=
  Bool.eq_false_iff.2 fun found => h (eq_empty_of_contains_empty found)

theorem startsWith_empty (h : part ≠ "") : startsWith "" part = false :=
  Bool.eq_false_iff.2 fun found => h (eq_empty_of_contains_empty (contains_of_startsWith found))

theorem endsWith_empty (h : part ≠ "") : endsWith "" part = false :=
  Bool.eq_false_iff.2 fun found => h (eq_empty_of_contains_empty (contains_of_endsWith found))

/-! ## Parts between a character -/

section Between

variable {sep : Char} {front rest : List Char} {parts : List (List Char)}

theorem splitOn_of_notMem (h : sep ∉ front) : splitOn sep front = [front] := by
  induction front with
  | nil => rfl
  | cons c cs ih =>
    have other : c ≠ sep := (List.ne_of_not_mem_cons h).symm
    rw [splitOn, if_neg other, ih (List.not_mem_of_not_mem_cons h)]

theorem splitOn_append_cons (h : sep ∉ front) (rest : List Char) :
    splitOn sep (front ++ sep :: rest) = front :: splitOn sep rest := by
  induction front with
  | nil => simp [splitOn]
  | cons c cs ih =>
    have other : c ≠ sep := (List.ne_of_not_mem_cons h).symm
    rw [List.cons_append, splitOn, if_neg other, ih (List.not_mem_of_not_mem_cons h)]

/-- **Parts come back** from the text that has a character between them, if none of them has it. -/
theorem splitOn_join (some : parts ≠ []) (h : ∀ part ∈ parts, sep ∉ part) :
    splitOn sep (join [sep] parts) = parts := by
  fun_induction join [sep] parts with
  | case1 => exact absurd rfl some
  | case2 part => exact splitOn_of_notMem (h part List.mem_cons_self)
  | case3 part parts more ih =>
    obtain ⟨first, later⟩ := List.forall_mem_cons.1 h
    rw [List.append_assoc, List.singleton_append, splitOn_append_cons first, ih more later]

theorem cut_of_notMem (h : sep ∉ front) : cut sep front = (front, none) := by
  induction front with
  | nil => rfl
  | cons c cs ih =>
    have other : c ≠ sep := (List.ne_of_not_mem_cons h).symm
    rw [cut, if_neg other, ih (List.not_mem_of_not_mem_cons h)]

/-- A text is cut where a character first stands. -/
theorem cut_append_cons (h : sep ∉ front) (rest : List Char) :
    cut sep (front ++ sep :: rest) = (front, some rest) := by
  induction front with
  | nil => simp [cut]
  | cons c cs ih =>
    have other : c ≠ sep := (List.ne_of_not_mem_cons h).symm
    rw [List.cons_append, cut, if_neg other, ih (List.not_mem_of_not_mem_cons h)]

/-- The parts between a character are those of the standard library. -/
theorem splitOn_eq (sep : Char) (cs : List Char) : splitOn sep cs = cs.splitOn sep := by
  induction cs with
  | nil => rfl
  | cons c cs ih =>
    rw [splitOn, ih, List.splitOn_cons_eq_if_modifyHead]
    cases parts : cs.splitOn sep with
    | nil => exact absurd parts (List.splitOn_ne_nil _ _)
    | cons part parts => simp

theorem join_cons_cons (sep first next : List Char) (later : List (List Char)) :
    join sep (first :: next :: later) = first ++ sep ++ join sep (next :: later) := rfl

theorem join_append_cons (sep front first : List Char) (later : List (List Char)) :
    join sep ((front ++ first) :: later) = front ++ join sep (first :: later) := by
  cases later with
  | nil => rfl
  | cons next later => simp only [join_cons_cons, List.append_assoc]

/-- The end of a separator may as well stand in front of the parts behind it. -/
theorem join_append (sep front first : List Char) (later : List (List Char)) :
    join (sep ++ front) (first :: later) = join sep (first :: later.map (front ++ ·)) := by
  induction later generalizing first with
  | nil => rfl
  | cons next later ih =>
    rw [List.map_cons, join_cons_cons, join_cons_cons, join_append_cons, ih]
    simp only [List.append_assoc]

end Between

/-! ## Words between white space -/

/-- What stands between white space, without what is empty. -/
def tokens (cs : List Char) : List (List Char) := (cs.splitOnP isBlank).filter (!·.isEmpty)

section Tokens

variable {c : Char} {cs token : List Char}

theorem wordsFrom_eq (run cs : List Char) :
    wordsFrom run cs = (cs.splitOnPPrepend isBlank run).filter (!·.isEmpty) := by
  fun_induction wordsFrom run cs with
  | case1 run none => simp [List.splitOnPPrepend_nil, none]
  | case2 run some => simp [List.splitOnPPrepend_nil, some]
  | case3 run c cs blank none ih =>
    rw [List.splitOnPPrepend_cons_pos blank, List.filter_cons_of_neg (by simpa using none), ih,
      List.splitOnPPrepend_nil_right]
  | case4 run c cs blank some ih =>
    rw [List.splitOnPPrepend_cons_pos blank, List.filter_cons_of_pos (by simpa using some), ih,
      List.splitOnPPrepend_nil_right]
  | case5 run c cs visible ih =>
    rw [List.splitOnPPrepend_cons_neg (by simpa using visible), ih]

/-- **The words of a text** are what stands between white space. -/
theorem words_eq_tokens (cs : List Char) : words cs = tokens cs := wordsFrom_eq [] cs

theorem tokens_append_cons (blank : isBlank c = true) (front rest : List Char) :
    tokens (front ++ c :: rest) = tokens front ++ tokens rest := by
  rw [tokens, List.splitOnP_append_cons _ _ blank, List.filter_append, tokens, tokens]

theorem tokens_cons (blank : isBlank c = true) (rest : List Char) :
    tokens (c :: rest) = tokens rest :=
  tokens_append_cons blank [] rest

/-- A text without white space is one word. -/
theorem tokens_of_visible (some : token ≠ []) (visible : ∀ c ∈ token, isBlank c = false) :
    tokens token = [token] := by
  rw [tokens, List.splitOnP_eq_singleton visible, List.filter_cons_of_pos (by simpa using some),
    List.filter_nil]

theorem flatten_wordsFrom (run cs : List Char) :
    (wordsFrom run cs).flatten = run.reverse ++ cs.filter (!isBlank ·) := by
  fun_induction wordsFrom run cs with
  | case1 run none => simpa using none
  | case2 run some => simp
  | case3 run c cs blank none ih => simp_all
  | case4 run c cs blank some ih => simp [blank, ih]
  | case5 run c cs visible ih => simp [visible, ih]

/-- The words hold all that is not white space. -/
theorem flatten_tokens (cs : List Char) : (tokens cs).flatten = cs.filter (!isBlank ·) := by
  rw [← words_eq_tokens, words, flatten_wordsFrom, List.reverse_nil, List.nil_append]

theorem ne_nil_of_mem_tokens (h : token ∈ tokens cs) : token ≠ [] := by
  simpa using (List.mem_filter.1 h).2

theorem visible_of_mem_tokens (h : token ∈ tokens cs) (mem : c ∈ token) : isBlank c = false := by
  have kept : c ∈ cs.filter (!isBlank ·) := flatten_tokens cs ▸ List.mem_flatten.2 ⟨token, h, mem⟩
  simpa using (List.mem_filter.1 kept).2

/-- A blank text is one without words. -/
theorem tokens_eq_nil_iff : tokens cs = [] ↔ ∀ c ∈ cs, isBlank c = true := by
  have all : (tokens cs).flatten = [] ↔ ∀ c ∈ cs, isBlank c = true := by
    rw [flatten_tokens, List.filter_eq_nil_iff]
    simp
  rw [← all, List.flatten_eq_nil_iff, List.eq_nil_iff_forall_not_mem]
  exact forall_congr' fun token => ⟨fun none mem => absurd mem none,
    fun empty mem => ne_nil_of_mem_tokens mem (empty mem)⟩

end Tokens

end RecordQuery.Text
