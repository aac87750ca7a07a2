import CircuitCompiler.Proofs.Shapes
import CircuitCompiler.Token.Parse

/-!
# Places of tokens and errors

Every token of a stream, its end and the fault that may end it stand in the range that was scanned.

* `Span.Inside`: a span of a range;
* `CompileError.Located`: an error with a cause of its own, at a place of a range;
* `Stream.scan_inside`: what a stream of a range consists of.
-/

namespace CircuitCompiler

/-- The span is of the file of the range and lies between its ends. -/
structure Span.Inside (s range : Span) : Prop where
  file : s.file = range.file
  start : range.start ≤ s.start
  order : s.start ≤ s.stop
  stop : s.stop ≤ range.stop

namespace Span.Inside

variable {s t range : Span}

theorem trans (h : s.Inside t) (h' : t.Inside range) : s.Inside range where
  file := h.file.trans h'.file
  start := Nat.le_trans h'.start h.start
  order := h.order
  stop := Nat.le_trans h.stop h'.stop

theorem cover (hs : s.Inside range) (ht : t.Inside range) : (s.cover t).Inside range := by
  have same : (s.file == t.file) = true := beq_iff_eq.mpr (hs.file.trans ht.file.symm)
  have := hs.order
  have := ht.order
  rw [Span.cover, if_pos same]
  refine ⟨hs.file, Nat.le_min.mpr ⟨hs.start, ht.start⟩, ?_, Nat.max_le.mpr ⟨hs.stop, ht.stop⟩⟩
  simp only
  omega

/-- The place behind a span of a range is one of the range. -/
theorem behind (h : s.Inside range) : (Span.point s.file s.stop).Inside range where
  file := h.file
  start := Nat.le_trans h.start h.order
  order := Nat.le_refl _
  stop := h.stop

end Span.Inside

/-- The error has a cause of its own and lies in the range. -/
structure CompileError.Located (range : Span) (e : CompileError) : Prop where
  cause : e.cause ≠ .parseFailed
  span : e.span.Inside range

theorem CompileError.Located.trans {s range : Span} {e : CompileError} (h : e.Located s)
    (inside : s.Inside range) : e.Located range :=
  ⟨h.cause, h.span.trans inside⟩

/-- The end of a stream, or the fault that ends it, lies in the range. -/
def Stop.Inside (range : Span) : Stop → Prop
  | .eof span => span.Inside range
  | .fault e => e.Located range

theorem Stop.Inside.trans {s range : Span} {stop : Stop} (h : stop.Inside s)
    (inside : s.Inside range) : stop.Inside range := by
  cases stop with
  | eof span => exact Span.Inside.trans h inside
  | fault e => exact CompileError.Located.trans h inside

theorem Stop.Inside.span {range : Span} {stop : Stop} (h : stop.Inside range) :
    stop.token.span.Inside range := by
  cases stop with
  | eof span => exact h
  | fault e => exact CompileError.Located.span h

/-- The tokens of a stream and its end lie in the range. -/
structure Stream.Inside (range : Span) (s : Stream) : Prop where
  tokens : ∀ t ∈ s.tokens, t.span.Inside range
  stop : s.stop.Inside range

namespace Scan

theorem faultOf_ne (text : Bytes) : faultOf text ≠ .parseFailed := by
  unfold faultOf
  split
  · simp
  · split
    · simp
    · split
      · split <;> simp
      · split
        · split <;> simp
        · simp

theorem gap_fault_file {file pos : Nat} {b : Bytes} {e : CompileError}
    (h : (gap file pos b).fault = some e) : e.span.file = file := by
  fun_induction gap file pos b with
  | case1 => cases h
  | case2 pos b t found span more ih =>
    simp only at h
    split at h
    · exact ih h
    · cases h
      rfl

theorem read_fault_file {scope : Scope} {file pos : Nat} {b : Bytes} {e : CompileError}
    (h : (read scope file pos b).fault = some e) : e.span.file = file := by
  cases fault_cases h with
  | gap found => exact gap_fault_file found
  | lexeme c rest text cause faultAt found place => rw [place]

/-- A fault lies between where the scanner was and where it stops. -/
theorem read_fault_located {scope : Scope} {file pos : Nat} {b : Bytes} {e : CompileError}
    (h : (read scope file pos b).fault = some e) :
    e.Located ⟨file, pos, (read scope file pos b).pos⟩ := by
  obtain ⟨start, order, stop⟩ := read_fault h
  refine ⟨?_, read_fault_file h, start, Nat.le_of_lt order, Nat.le_of_eq stop⟩
  rw [read_fault_cause h]
  exact faultOf_ne _

/-- The end is a point behind the gap. -/
theorem read_eof {scope : Scope} {file pos : Nat} {b : Bytes}
    (fine : (read scope file pos b).fault = none)
    (ended : (read scope file pos b).token.kind = .eof) :
    (read scope file pos b).token = .eof (.point file (read scope file pos b).pos) ∧
      (gap file pos b).pos = (read scope file pos b).pos := by
  cases fine_cases fine with
  | eof _ _ step =>
    rw [step]
    exact ⟨rfl, rfl⟩
  | token c tail kind text value taken => exact absurd ended taken.kind_ne_eof

/-- A token or the end lies between where the scanner was and where it stops. -/
theorem read_inside {scope : Scope} {file pos : Nat} {b : Bytes}
    (fine : (read scope file pos b).fault = none) :
    (read scope file pos b).token.span.Inside ⟨file, pos, (read scope file pos b).pos⟩ := by
  obtain ⟨skipped, -, gapPos, -⟩ := gap_split file pos b
  have ahead := gap_pos_le_read scope file pos b
  by_cases ended : (read scope file pos b).token.kind = .eof
  · obtain ⟨token, -⟩ := read_eof fine ended
    rw [token]
    exact ⟨rfl, by simp only [Token.eof, Span.point]; omega, Nat.le_refl _, Nat.le_refl _⟩
  · rw [(read_token fine ended).1]
    exact ⟨rfl, by simp only; omega, ahead, Nat.le_refl _⟩

/-- Where the scanner stops parts the bytes in two. -/
theorem read_halves (scope : Scope) (file pos : Nat) (b : Bytes) :
    Span.Inside ⟨file, pos, (read scope file pos b).pos⟩ ⟨file, pos, pos + b.length⟩ ∧
      Span.Inside ⟨file, (read scope file pos b).pos,
        (read scope file pos b).pos + (read scope file pos b).rest.length⟩
        ⟨file, pos, pos + b.length⟩ := by
  obtain ⟨taken, split, behind⟩ := read_split scope file pos b
  have size := congrArg List.length split
  rw [List.length_append] at size
  constructor
  · exact ⟨rfl, Nat.le_refl _, by simp only; omega, by simp only; omega⟩
  · exact ⟨rfl, by simp only; omega, Nat.le_add_right _ _, by simp only; omega⟩

end Scan

namespace Stream
open Scan

/-- What a stream consists of lies in the bytes that were scanned. -/
theorem scan_inside (file pos : Nat) (b : Bytes) :
    (scan file pos b).Inside ⟨file, pos, pos + b.length⟩ := by
  fun_induction scan file pos b with
  | case1 pos b step more behind ih =>
    obtain ⟨front, back⟩ := read_halves .general file pos b
    refine ⟨List.forall_mem_cons.mpr ⟨(read_inside more.1).trans front, fun t ht => ?_⟩, ?_⟩
    · exact (ih.tokens t ht).trans back
    · exact ih.stop.trans back
  | case2 pos b step _ e fault =>
    obtain ⟨front, -⟩ := read_halves .general file pos b
    exact ⟨by simp, (read_fault_located fault).trans front⟩
  | case3 pos b step _ fault =>
    obtain ⟨front, -⟩ := read_halves .general file pos b
    exact ⟨by simp, (read_inside fault).trans front⟩

/-- Every token takes a byte. -/
theorem length_tokens_le (file pos : Nat) (b : Bytes) :
    (scan file pos b).tokens.length ≤ b.length := by
  fun_induction scan file pos b with
  | case1 pos b step more behind ih =>
    have shorter : step.rest.length < b.length := read_shortens more.1 more.2
    have rest : behind.tokens.length ≤ step.rest.length := ih
    rw [List.length_cons]
    omega
  | case2 => exact Nat.zero_le _
  | case3 => exact Nat.zero_le _

end Stream
end CircuitCompiler
