import CircuitCompiler.Source.File
import Mathlib.Data.List.GetD

/-!
# Offsets and lines

The newlines of a file part its content into lines. The position of an offset says how many newlines
are before it and how far it lies behind the last of them, so the lines before a position and the
part of its own line make up all that is before the offset.

* `SourceFile.newlinesBefore_parts`: halving the table finds where an offset parts the newlines;
* `SourceFile.take_lineStart`: the lines before a line are all that is before it;
* `FileSet.resolve_locates`: positions and lines fit together, at every offset and for every number.
-/

namespace CircuitCompiler

namespace SourceFile

/-! ## The table of newlines -/

theorem le_of_mem_newlinesFrom {o n : Nat} {b : Bytes} (h : n ∈ newlinesFrom o b) : o ≤ n := by
  fun_induction newlinesFrom o b with
  | case1 => cases h
  | case2 o b rest _ ih =>
    rcases List.mem_cons.mp h with rfl | later
    · exact Nat.le_refl _
    · exact Nat.le_of_succ_le (ih later)
  | case3 o b rest _ ih => exact Nat.le_of_succ_le (ih h)

theorem newlinesFrom_sorted (o : Nat) (b : Bytes) : (newlinesFrom o b).Pairwise (· < ·) := by
  fun_induction newlinesFrom o b with
  | case1 => exact .nil
  | case2 o b rest _ ih => exact .cons (fun _ later => le_of_mem_newlinesFrom later) ih
  | case3 o b rest _ ih => exact ih

theorem length_newlinesFrom (o : Nat) (b : Bytes) : (newlinesFrom o b).length = b.count 10 := by
  fun_induction newlinesFrom o b with
  | case1 => rfl
  | case2 o b rest newline ih => simp [List.count_cons, newline, ih]
  | case3 o b rest other ih => simp [List.count_cons, other, ih]

theorem getElem?_of_mem_newlinesFrom {o n : Nat} {b : Bytes} (h : n ∈ newlinesFrom o b) :
    b[n - o]? = some 10 := by
  fun_induction newlinesFrom o b with
  | case1 => cases h
  | case2 o b rest newline ih =>
    rcases List.mem_cons.mp h with rfl | later
    · simpa using newline
    · have behind := le_of_mem_newlinesFrom later
      rw [show n - o = n - (o + 1) + 1 by omega, List.getElem?_cons_succ]
      exact ih later
  | case3 o b rest _ ih =>
    have behind := le_of_mem_newlinesFrom h
    rw [show n - o = n - (o + 1) + 1 by omega, List.getElem?_cons_succ]
    exact ih h

/-- The newlines before an offset are those of what is before it. -/
theorem countP_newlinesFrom (o k : Nat) (b : Bytes) :
    (newlinesFrom o b).countP (· < o + k) = (b.take k).count 10 := by
  induction b generalizing o k with
  | nil => simp [newlinesFrom]
  | cons x rest ih =>
    cases k with
    | zero =>
      rw [List.take_zero, List.count_nil, List.countP_eq_zero]
      intro n mem
      simpa using le_of_mem_newlinesFrom mem
    | succ k =>
      have later := ih (o + 1) k
      rw [show o + 1 + k = o + (k + 1) by omega] at later
      rw [newlinesFrom, List.take_succ_cons, List.count_cons, ← later]
      split <;> simp_all

variable {f : SourceFile} {off k : Nat}

theorem length_newlines (f : SourceFile) : f.newlines.length = f.content.count 10 :=
  length_newlinesFrom 0 f.content

/-- Two entries of the table are in order. -/
theorem newlines_lt {i j : Nat} (earlier : i < j) (inside : j < f.newlines.length) :
    f.newlines.getD i 0 < f.newlines.getD j 0 := by
  have sorted : f.newlines.Pairwise (· < ·) := newlinesFrom_sorted 0 f.content
  rw [List.getD_eq_getElem _ _ inside, List.getD_eq_getElem _ _ (Nat.lt_trans earlier inside)]
  exact List.pairwise_iff_getElem.mp sorted i j _ _ earlier

/-! ## Halving the table -/

/-- The first `k` entries of a table are less than an offset, and the others are not. -/
structure Parts (table : List Nat) (off k : Nat) : Prop where
  size : k ≤ table.length
  before : ∀ i < k, table.getD i 0 < off
  behind : ∀ i, k ≤ i → i < table.length → off ≤ table.getD i 0

theorem getD_toArray (table : List Nat) (i : Nat) : table.toArray.getD i 0 = table.getD i 0 := by
  simp

/-- One round keeps what is known of both sides of the range, as the table is in order; the range
gets smaller until both sides meet. -/
theorem newlinesBefore_parts {table : List Nat} {lo hi : Nat}
    (sorted : ∀ i j, i < j → j < table.length → table.getD i 0 < table.getD j 0)
    (range : lo ≤ hi) (inside : hi ≤ table.length) (before : ∀ i < lo, table.getD i 0 < off)
    (behind : ∀ i, hi ≤ i → i < table.length → off ≤ table.getD i 0) :
    Parts table off (newlinesBefore table.toArray off lo hi) := by
  fun_induction newlinesBefore table.toArray off lo hi with
  | case1 lo hi open_ mid less ih =>
    rw [getD_toArray] at less
    refine ih (by omega) inside (fun i low => ?_) behind
    rcases Nat.lt_or_ge i mid with earlier | later
    · exact Nat.lt_trans (sorted i mid earlier (by omega)) less
    · rwa [show i = mid by omega]
  | case2 lo hi open_ mid more ih =>
    rw [getD_toArray] at more
    refine ih (by omega) (by omega) before fun i high small => ?_
    rcases Nat.lt_or_ge mid i with later | earlier
    · exact Nat.le_of_lt (Nat.lt_of_le_of_lt (Nat.not_lt.mp more) (sorted mid i later small))
    · rw [show i = mid by omega]
      exact Nat.not_lt.mp more
  | case3 lo hi closed =>
    exact ⟨by omega, before, fun i low small => behind i (by omega) small⟩

/-! ## Lines -/

/-- Where the line behind the first `k` newlines starts. -/
def lineStart (f : SourceFile) (k : Nat) : Nat := if k = 0 then 0 else f.newlines.getD (k - 1) 0 + 1

/-- Where the line behind the first `k` newlines ends. -/
def lineEnd (f : SourceFile) (k : Nat) : Nat := f.newlines.getD k f.content.length

theorem lineEnd_lt (inside : k < f.newlines.length) : f.lineEnd k < f.content.length := by
  rw [lineEnd, List.getD_eq_getElem _ _ inside]
  have newline := getElem?_of_mem_newlinesFrom (List.getElem_mem inside)
  rw [Nat.sub_zero] at newline
  exact (List.getElem?_eq_some_iff.mp newline).1

theorem getElem?_lineEnd (inside : k < f.newlines.length) :
    f.content[f.lineEnd k]? = some 10 := by
  rw [lineEnd, List.getD_eq_getElem _ _ inside]
  exact getElem?_of_mem_newlinesFrom (List.getElem_mem inside)

theorem lineEnd_last (f : SourceFile) : f.lineEnd f.newlines.length = f.content.length :=
  List.getD_eq_default _ _ (Nat.le_refl _)

theorem lineEnd_le (inside : k ≤ f.newlines.length) : f.lineEnd k ≤ f.content.length := by
  rcases Nat.lt_or_eq_of_le inside with inside | rfl
  · exact Nat.le_of_lt (lineEnd_lt inside)
  · exact Nat.le_of_eq f.lineEnd_last

/-- The next line starts behind the newline. -/
theorem lineStart_succ (inside : k < f.newlines.length) : f.lineStart (k + 1) = f.lineEnd k + 1 := by
  rw [lineStart, if_neg (Nat.succ_ne_zero k), Nat.add_sub_cancel, lineEnd,
    List.getD_eq_getElem _ _ inside, List.getD_eq_getElem _ _ inside]

theorem lineStart_le_lineEnd (inside : k ≤ f.newlines.length) : f.lineStart k ≤ f.lineEnd k := by
  cases k with
  | zero => exact Nat.zero_le _
  | succ k =>
    rw [lineStart_succ inside]
    rcases Nat.lt_or_eq_of_le inside with next | last
    · have later := newlines_lt (Nat.lt_succ_self k) next
      rw [lineEnd, lineEnd, List.getD_eq_getElem _ _ inside, List.getD_eq_getElem _ _ next]
      rwa [List.getD_eq_getElem _ _ inside, List.getD_eq_getElem _ _ next] at later
    · rw [last, lineEnd_last]
      exact lineEnd_lt inside

theorem line_succ (inside : k ≤ f.newlines.length) :
    f.line (k + 1) = f.content.slice (f.lineStart k) (f.lineEnd k) := by
  have known : (k + 1 == 0 || decide (f.newlines.length + 1 < k + 1)) = false := by
    simp [Nat.not_lt.mpr inside]
  rw [line, if_neg (by rw [known]; exact Bool.false_ne_true)]
  cases k with
  | zero => rfl
  | succ k => rfl

theorem line_outside {n : Nat} (outside : n = 0 ∨ f.newlines.length + 1 < n) : f.line n = [] := by
  have unknown : (n == 0 || decide (f.newlines.length + 1 < n)) = true := by simpa using outside
  rw [line, if_pos unknown]

/-- The lines with the first `k` numbers, each followed by its newline. -/
def linesUpTo (f : SourceFile) (k : Nat) : Bytes :=
  (List.range' 1 k).flatMap fun n => f.line n ++ [10]

/-- What is before a line is the lines before it. -/
theorem take_lineStart (inside : k ≤ f.newlines.length) :
    f.content.take (f.lineStart k) = f.linesUpTo k := by
  induction k with
  | zero => rfl
  | succ k ih =>
    have start := lineStart_le_lineEnd (Nat.le_of_lt inside)
    have line : f.content.take (f.lineEnd k) = f.linesUpTo k ++ f.line (k + 1) := by
      rw [← ih (Nat.le_of_lt inside), line_succ (Nat.le_of_lt inside)]
      exact (Bytes.slice_append f.content (Nat.zero_le _) start).symm
    rw [lineStart_succ inside, List.take_add_one, line, getElem?_lineEnd inside, linesUpTo,
      linesUpTo, List.range'_1_concat, List.flatMap_append, List.flatMap_singleton,
      Nat.add_comm 1 k, Option.toList_some, List.append_assoc]

/-- What is before an offset on a line is the lines before it and a part of the line. -/
theorem take_on_line (inside : k ≤ f.newlines.length) (start : f.lineStart k ≤ off)
    (stop : off ≤ f.lineEnd k) :
    f.content.take off = f.linesUpTo k ++ (f.line (k + 1)).take (off - f.lineStart k) := by
  have part : (f.line (k + 1)).take (off - f.lineStart k) = f.content.slice (f.lineStart k) off := by
    rw [line_succ inside, Bytes.slice, List.take_drop, Nat.add_sub_cancel' start, List.take_take,
      Nat.min_eq_left stop, Bytes.slice]
  rw [part, ← take_lineStart inside]
  exact (Bytes.slice_append f.content (Nat.zero_le _) start).symm

theorem length_line (inside : k ≤ f.newlines.length) :
    f.lineStart k + (f.line (k + 1)).length = f.lineEnd k := by
  have start := lineStart_le_lineEnd inside
  have stop := lineEnd_le inside
  rw [line_succ inside, Bytes.slice, List.length_drop, List.length_take]
  omega

theorem intercalate_concat (sep : Bytes) (ls : List Bytes) (l : Bytes) :
    sep.intercalate (ls ++ [l]) = ls.flatMap (· ++ sep) ++ l := by
  induction ls with
  | nil => simp [List.intercalate]
  | cons first rest ih =>
    obtain ⟨second, more, split⟩ :=
      List.exists_cons_of_ne_nil (List.append_ne_nil_of_right_ne_nil rest (List.cons_ne_nil l []))
    rw [List.cons_append, List.flatMap_cons, List.append_assoc, ← ih, split,
      List.intercalate_cons_cons]

/-- All lines with newlines between them are the content. -/
theorem lines_join (f : SourceFile) :
    [10].intercalate ((List.range' 1 (f.newlines.length + 1)).map f.line) = f.content := by
  have last := take_on_line (Nat.le_refl f.newlines.length) (lineStart_le_lineEnd (Nat.le_refl _))
    (Nat.le_refl _)
  rw [← length_line (Nat.le_refl _), Nat.add_sub_cancel_left, List.take_length,
    length_line (Nat.le_refl _), lineEnd_last, List.take_length] at last
  rw [List.range'_1_concat, List.map_append, List.map_singleton, intercalate_concat,
    List.flatMap_map, Nat.add_comm 1]
  exact last.symm

/-! ## Positions -/

/-- A position of an offset: its line is told by the newlines before the offset, and what is before
the offset is the lines before this one and so much of it as the column says. -/
structure Locates (f : SourceFile) (off : Nat) (p : Position) : Prop where
  line : p.line = (f.content.take off).count 10 + 1
  column : 1 ≤ p.column ∧ p.column ≤ (f.line p.line).length + 1
  text : f.content.take off =
    ((List.range' 1 (p.line - 1)).flatMap fun n => f.line n ++ [10]) ++
      (f.line p.line).take (p.column - 1)

/-- A position comes from the place where its offset parts the table. -/
theorem position_eq (f : SourceFile) (off : Nat) :
    ∃ k, Parts f.newlines off k ∧
      f.position off = ⟨k + 1, (off - f.lineStart k + 1) % offsetLimit⟩ := by
  refine ⟨newlinesBefore f.newlines.toArray off 0 f.newlines.length, ?_, ?_⟩
  · exact newlinesBefore_parts (fun i j earlier inside => newlines_lt earlier inside)
      (Nat.zero_le _) (Nat.le_refl _) (fun i low => absurd low (Nat.not_lt_zero i))
      (fun i high small => absurd small (Nat.not_lt.mpr high))
  · simp only [position, positionIn, lineStart, beq_iff_eq, getD_toArray, List.size_toArray]

theorem Parts.count_eq (parts : Parts f.newlines off k) : (f.content.take off).count 10 = k := by
  have before : (f.newlines.take k).countP (· < off) = (f.newlines.take k).length := by
    refine List.countP_eq_length.mpr fun n mem => ?_
    obtain ⟨i, low, rfl⟩ := List.mem_take_iff_getElem.mp mem
    have less := parts.before i (by omega)
    rw [List.getD_eq_getElem _ _ (by omega)] at less
    exact decide_eq_true less
  have behind : (f.newlines.drop k).countP (· < off) = 0 := by
    refine List.countP_eq_zero.mpr fun n mem => ?_
    obtain ⟨i, small, rfl⟩ := List.mem_drop_iff_getElem.mp mem
    have more := parts.behind (k + i) (by omega) (by omega)
    rw [List.getD_eq_getElem _ _ (by omega)] at more
    simpa using more
  have count := countP_newlinesFrom 0 off f.content
  rw [Nat.zero_add] at count
  calc (f.content.take off).count 10
      = (f.newlines.take k ++ f.newlines.drop k).countP (· < off) := by
        rw [List.take_append_drop, ← count, newlines]
    _ = k := by
        rw [List.countP_append, before, behind, List.length_take, Nat.min_eq_left parts.size,
          Nat.add_zero]

/-- An offset in the file lies on the line behind the newlines before it. -/
theorem Parts.on_line (parts : Parts f.newlines off k) (inside : off ≤ f.content.length) :
    f.lineStart k ≤ off ∧ off ≤ f.lineEnd k := by
  constructor
  · cases k with
    | zero => exact Nat.zero_le _
    | succ k => exact parts.before k (Nat.lt_succ_self k)
  · rcases Nat.lt_or_eq_of_le parts.size with next | rfl
    · have more := parts.behind k (Nat.le_refl k) next
      rwa [List.getD_eq_getElem _ _ next, ← List.getD_eq_getElem _ f.content.length next] at more
    · rwa [lineEnd_last]

theorem position_locates (fits : f.content.length + 1 < offsetLimit)
    (inside : off ≤ f.content.length) : f.Locates off (f.position off) := by
  obtain ⟨k, parts, position⟩ := f.position_eq off
  obtain ⟨start, stop⟩ := parts.on_line inside
  have ends := length_line parts.size
  rw [Nat.mod_eq_of_lt (by omega)] at position
  rw [position]
  constructor
  case line => rw [parts.count_eq]
  case column => exact ⟨Nat.le_add_left 1 _, by simp only; omega⟩
  case text => exact take_on_line parts.size start stop

end SourceFile

/-! ## Files of a set -/

/-- In a file that is shorter than 32-bit offsets and columns reach, the positions of a span are
those of its ends, the lines are what stands between the newlines, and other numbers have no
line. -/
theorem FileSet.resolve_locates {s : FileSet} {id : Nat} {f : SourceFile}
    (known : s.get? id = some f) (fits : f.content.length + 1 < offsetLimit) :
    (∀ span : Span, span.file = id → ∃ start stop, s.resolve span = some (start, stop) ∧
      (span.start ≤ f.content.length → f.Locates span.start start) ∧
      (span.stop ≤ f.content.length → f.Locates span.stop stop)) ∧
    [10].intercalate ((List.range' 1 (f.content.count 10 + 1)).map f.line) = f.content ∧
    ∀ n, n = 0 ∨ f.content.count 10 + 1 < n → f.line n = [] := by
  refine ⟨?_, ?_, fun n outside => ?_⟩
  · rintro span rfl
    refine ⟨f.position span.start, f.position span.stop, ?_, ?_, ?_⟩
    · rw [resolve, known, Option.map_some]
    · exact SourceFile.position_locates fits
    · exact SourceFile.position_locates fits
  · rw [← SourceFile.length_newlines]
    exact f.lines_join
  · rw [← SourceFile.length_newlines] at outside
    exact SourceFile.line_outside outside

/-- A set with one file, of which two lines are empty. -/
def FileSet.gapped : FileSet := ⟨[⟨0, "gapped", [97, 98, 10, 10, 99, 10], 0⟩]⟩

/-- Its first newline is on line one, and its end is on a line without text. -/
theorem FileSet.resolve_locates_gapped :
    ∃ f, gapped.get? 0 = some f ∧ f.content.length + 1 < offsetLimit ∧
      gapped.resolve ⟨0, 2, 6⟩ = some (⟨1, 3⟩, ⟨4, 1⟩) ∧ f.Locates 2 ⟨1, 3⟩ ∧ f.Locates 6 ⟨4, 1⟩ ∧
      f.line 5 = [] := by
  have known : gapped.get? 0 = some ⟨0, "gapped", [97, 98, 10, 10, 99, 10], 0⟩ := rfl
  obtain ⟨spans, -, outside⟩ := resolve_locates known (by decide)
  obtain ⟨start, stop, found, atStart, atStop⟩ := spans ⟨0, 2, 6⟩ rfl
  have ends : gapped.resolve ⟨0, 2, 6⟩ = some (⟨1, 3⟩, ⟨4, 1⟩) := by decide +kernel
  obtain ⟨rfl, rfl⟩ := Prod.mk.inj (Option.some.inj (found.symm.trans ends))
  exact ⟨_, rfl, by decide, ends, atStart (by decide), atStop (by decide),
    outside 5 (.inr (by decide))⟩

end CircuitCompiler
