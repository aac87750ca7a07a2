import CircuitCompiler.Proofs.Chunks
import CircuitCompiler.Proofs.Draining
import Mathlib.Data.List.Chain

/-!
# No byte is lost

Where white space and comments are kept, a source can be put together again from its tokens: they
and what stands before them lie edge to edge from the first byte on. Behind the last token there is
nothing but white space and comments, and the end is behind all bytes.

* `Tiles`: pieces of a file that lie edge to edge;
* `Scan.IsFiller`: white space and comments, said without the scanner;
* `Scan.read_tiles`: one token with what stands before it;
* `Scan.Runs.tiles`: all tokens of a file;
* `Lexer.drain_lossless`: what a lexer hands out.
-/

namespace CircuitCompiler

/-! ## Pieces of a file -/

/-- White space or a comment with its place. -/
def Trivia.piece (t : Trivia) : Span × Bytes := (t.span, t.text)

/-- What stands before a token and the token itself, each with its place. -/
def Token.pieces (t : Token) : List (Span × Bytes) :=
  t.leading.map Trivia.piece ++ [(t.span, t.text)]

/-- The bytes of a token with those of what stands before it. -/
def Token.written (t : Token) : Bytes := t.leading.flatMap (·.text) ++ t.text

theorem Token.written_eq (t : Token) : t.written = t.pieces.flatMap (·.2) := by
  rw [written, pieces, List.flatMap_append, List.flatMap_map, List.flatMap_singleton]
  rfl

/-- The offset behind the last token. -/
def endOf (lo : Nat) (ts : List Token) : Nat := (ts.getLast?.map (·.span.stop)).getD lo

theorem endOf_cons (lo : Nat) (t : Token) (ts : List Token) :
    endOf lo (t :: ts) = endOf t.span.stop ts := by
  unfold endOf
  rw [List.getLast?_cons]
  cases ts.getLast? <;> rfl

/-- The pieces lie edge to edge from `lo` up to `hi`: each starts where the one before it ends, and
its text is what the file has there. -/
def Tiles (f : SourceFile) : Nat → List (Span × Bytes) → Nat → Prop
  | lo, [], hi => lo = hi
  | lo, (span, text) :: rest, hi =>
    span = ⟨f.id, lo, lo + text.length⟩ ∧ f.content.slice span.start span.stop = text ∧
      Tiles f span.stop rest hi

namespace Tiles

variable {f : SourceFile} {lo mid hi : Nat} {ps qs : List (Span × Bytes)}

theorem append (front : Tiles f lo ps mid) (back : Tiles f mid qs hi) :
    Tiles f lo (ps ++ qs) hi := by
  induction ps generalizing lo with
  | nil =>
    obtain rfl : lo = mid := front
    exact back
  | cons p ps ih =>
    obtain ⟨span, text, rest⟩ := front
    exact ⟨span, text, ih rest⟩

theorem le (tiles : Tiles f lo ps hi) : lo ≤ hi := by
  induction ps generalizing lo with
  | nil => exact Nat.le_of_eq tiles
  | cons p ps ih =>
    obtain ⟨span, -, rest⟩ := tiles
    have behind := ih rest
    rw [span] at behind
    exact Nat.le_trans (Nat.le_add_right ..) behind

/-- The pieces make up the bytes between the first and the last edge. -/
theorem text (tiles : Tiles f lo ps hi) : ps.flatMap (·.2) = f.content.slice lo hi := by
  induction ps generalizing lo with
  | nil =>
    obtain rfl : lo = hi := tiles
    simp [Bytes.slice]
  | cons p ps ih =>
    obtain ⟨span, text, rest⟩ := tiles
    have behind := rest.le
    rw [List.flatMap_cons, ih rest, ← text]
    rw [span] at behind ⊢
    exact f.content.slice_append (Nat.le_add_right ..) behind

end Tiles

namespace Scan

/-! ## White space and comments -/

/-- The bytes are white space and comments only. A comment to the end of its line goes up to a
newline or to the last byte, a block comment up to the first end behind its opening. -/
inductive IsFiller : Bytes → Prop
  | nil : IsFiller []
  | white {b : UInt8} {rest : Bytes} : isSpace b = true ∨ b = 10 → IsFiller rest →
      IsFiller (b :: rest)
  | line {body rest : Bytes} : 10 ∉ body → (∀ b ∈ rest.head?, b = 10) → IsFiller rest →
      IsFiller (47 :: 47 :: (body ++ rest))
  | block {body rest : Bytes} : ¬ [42, 47] <:+: body ++ [42] → IsFiller rest →
      IsFiller (47 :: 42 :: (body ++ [42, 47] ++ rest))

theorem IsFiller.whites {white rest : Bytes} (all : ∀ b ∈ white, isSpace b = true ∨ b = 10)
    (behind : IsFiller rest) : IsFiller (white ++ rest) := by
  induction white with
  | nil => exact behind
  | cons b white ih =>
    obtain ⟨here, later⟩ := List.forall_mem_cons.mp all
    exact .white here (ih later)

/-- A block comment ends with the first end behind its opening. -/
theorem toCommentEnd_first {b text : Bytes} (h : toCommentEnd b = some text) :
    ∃ body, text = body ++ [42, 47] ∧ ¬ [42, 47] <:+: body ++ [42] := by
  induction b using toCommentEnd.induct generalizing text with
  | case1 tail =>
    simp only [toCommentEnd, Option.some.injEq] at h
    exact ⟨[], h.symm, fun inside => absurd inside.length_le (by decide)⟩
  | case2 c rest other ih =>
    rw [toCommentEnd_cons other] at h
    obtain ⟨inner, found, rfl⟩ := Option.map_eq_some_iff.mp h
    obtain ⟨body, rfl, first⟩ := ih found
    refine ⟨c :: body, rfl, fun inside => ?_⟩
    rcases List.infix_cons_iff.mp inside with starts | later
    · -- the end would stand at the front, where the scanner has seen none
      obtain ⟨rfl, behind⟩ := List.cons_prefix_cons.mp starts
      obtain ⟨tail, split⟩ := toCommentEnd_prefix found
      cases body with
      | nil => simp at behind
      | cons d body =>
        obtain ⟨rfl, -⟩ := List.cons_prefix_cons.mp behind
        rw [List.cons_append, List.cons_append] at split
        exact other _ rfl split.symm
    · exact first later
  | case3 => simp [toCommentEnd] at h

theorem isFiller_of_trivium {b rest : Bytes} {t : Trivium} (h : trivium b = some t)
    (closed : t.closed = true) (split : t.text ++ rest = b) (behind : IsFiller rest) :
    IsFiller b := by
  cases begins_of_trivium h with
  | @space c tail white =>
    rw [← split]
    refine behind.whites (List.forall_mem_cons.mpr ⟨.inl white, fun x hx => .inl ?_⟩)
    exact holds_of_mem_takeWhile hx
  | @newline tail =>
    rw [← split]
    refine behind.whites (List.forall_mem_cons.mpr ⟨.inr rfl, fun x hx => .inr ?_⟩)
    exact eq_of_beq (holds_of_mem_takeWhile (p := (· == 10)) hx)
  | @line tail =>
    have run : (47 :: tail).takeWhile (· != 10) = 47 :: tail.takeWhile (· != 10) := rfl
    simp only [run, List.cons_append, List.cons.injEq, true_and] at split
    rw [← split]
    refine .line (fun newline => ?_) (fun x hx => ?_) behind
    · have other := holds_of_mem_takeWhile newline
      cases other
    · -- what stops the run is a newline
      have stops := List.head?_dropWhile_not (· != 10) tail
      rw [← drop_of_split List.takeWhile_append_dropWhile, drop_of_split split, hx] at stops
      simpa using stops
  | @block body text found =>
    obtain ⟨inner, rfl, first⟩ := toCommentEnd_first found
    simp only [List.cons_append, List.cons.injEq, true_and] at split
    rw [← split]
    exact .block first behind
  | unclosed none => cases closed

/-- A gap without a fault that reaches the last byte is white space and comments. -/
theorem isFiller_of_gap {file pos : Nat} {b : Bytes} (fine : (gap file pos b).fault = none)
    (ended : (gap file pos b).rest = []) : IsFiller b := by
  fun_induction gap file pos b with
  | case1 pos b none =>
    obtain rfl : b = [] := ended
    exact .nil
  | case2 pos b t found span more ih =>
    obtain ⟨rest, split⟩ := trivium_prefix found
    simp only at fine
    split at fine
    · next closed =>
      have behind := ih fine ended
      rw [drop_of_split split] at behind
      exact isFiller_of_trivium found closed split behind
    · cases fine

end Scan

/-- Two neighbours are not both runs of white space of one kind, which would be one run. -/
def Trivia.Apart (s t : Trivia) : Prop :=
  ¬ (s.kind = .space ∧ t.kind = .space) ∧ ¬ (s.kind = .newline ∧ t.kind = .newline)

/-- The tokens before the end of a file, with what stands before them, give the whole file. -/
structure SourceFile.Covered (f : SourceFile) (tokens : List Token) : Prop where
  kinds : ∀ t ∈ tokens, t.kind ≠ .eof ∧ t.kind ≠ .invalid
  /-- One behind the other they are the bytes up to the end of the last token. -/
  text : tokens.flatMap Token.written = f.content.take (endOf 0 tokens)
  /-- Each piece starts where the one before it ends and has the text of its place. -/
  tiles : Tiles f 0 (tokens.flatMap Token.pieces) (endOf 0 tokens)
  /-- No run of white space is cut in two. -/
  apart : ∀ t ∈ tokens, t.leading.IsChain Trivia.Apart
  /-- The bytes that are left are white space and comments. -/
  filler : Scan.IsFiller (f.content.drop (endOf 0 tokens))

namespace Scan

theorem kind_apart {b : Bytes} {t u : Trivium} (first : trivium b = some t)
    (second : trivium (b.drop t.text.length) = some u) :
    ¬ (t.kind = .space ∧ u.kind = .space) ∧ ¬ (t.kind = .newline ∧ u.kind = .newline) := by
  -- the byte behind a run is not of its class
  have stops (p : UInt8 → Bool) (c : UInt8) (tail : Bytes)
      (behind : (tail.drop (tail.takeWhile p).length).head? = some c) : p c = false := by
    have out := List.head?_dropWhile_not p tail
    rw [← drop_of_split List.takeWhile_append_dropWhile, behind] at out
    exact out
  cases begins_of_trivium first with
  | @space c tail white =>
    refine ⟨fun ⟨_, kind⟩ => ?_, by simp⟩
    simp only [List.length_cons, List.drop_succ_cons] at second
    generalize hb : tail.drop (tail.takeWhile isSpace).length = behind at second
    cases begins_of_trivium second with
    | @space d rest white' =>
      have other := stops isSpace d tail (by rw [hb]; rfl)
      rw [white'] at other
      cases other
    | newline | line | block | unclosed => cases kind
  | @newline tail =>
    refine ⟨by simp, fun ⟨_, kind⟩ => ?_⟩
    simp only [List.length_cons, List.drop_succ_cons] at second
    generalize hb : tail.drop (tail.takeWhile (· == 10)).length = behind at second
    cases begins_of_trivium second with
    | @newline rest =>
      have other := stops (· == 10) 10 tail (by rw [hb]; rfl)
      cases other
    | space | line | block | unclosed => cases kind
  | line | block | unclosed => exact ⟨by simp, by simp⟩

/-- What a gap begins with is the trivium that the bytes begin with. -/
theorem head_gap {file pos : Nat} {b : Bytes} {u : Trivia}
    (h : (gap file pos b).trivia.head? = some u) : ∃ t, trivium b = some t ∧ u.kind = t.kind := by
  rw [gap] at h
  split at h
  · cases h
  · next t found =>
    cases h
    exact ⟨t, found, rfl⟩

theorem gap_apart (file pos : Nat) (b : Bytes) : (gap file pos b).trivia.IsChain Trivia.Apart := by
  fun_induction gap file pos b with
  | case1 => exact .nil
  | case2 pos b t found span more ih =>
    refine List.isChain_cons.mpr ⟨fun u hu => ?_, ih⟩
    obtain ⟨t', found', kind⟩ := head_gap hu
    rw [Trivia.Apart, kind]
    exact kind_apart found found'

/-! ## Edge to edge -/

variable {f : SourceFile} {scope : Scope} {pos : Nat} {b : Bytes}

/-- The bytes at the front of what is left have their place in the file. -/
theorem slice_front {text rest : Bytes} (here : text ++ rest = f.content.drop pos) :
    f.content.slice pos (pos + text.length) = text ∧
      rest = f.content.drop (pos + text.length) := by
  constructor
  · rw [Bytes.slice, List.drop_take, Nat.add_sub_cancel_left, ← here, List.take_left]
  · rw [← List.drop_drop, ← here, List.drop_left]

theorem gap_tiles (here : b = f.content.drop pos) :
    Tiles f pos ((gap f.id pos b).trivia.map Trivia.piece) (gap f.id pos b).pos := by
  fun_induction gap f.id pos b with
  | case1 => exact rfl
  | case2 pos b t found span more ih =>
    obtain ⟨rest, split⟩ := trivium_prefix found
    obtain ⟨text, behind⟩ := slice_front (split.trans here)
    refine ⟨rfl, text, ih ?_⟩
    rw [drop_of_split split]
    exact behind

/-- A token and what stands before it lie edge to edge up to where the scanner stops. -/
theorem read_tiles (here : b = f.content.drop pos)
    (fine : (read scope f.id pos b).fault = none)
    (more : (read scope f.id pos b).token.kind ≠ .eof) :
    Tiles f pos (read scope f.id pos b).token.pieces (read scope f.id pos b).pos ∧
      (read scope f.id pos b).token.span.stop = (read scope f.id pos b).pos ∧
      (read scope f.id pos b).token.leading.IsChain Trivia.Apart := by
  obtain ⟨c, tail, kind, spelled, value, taken⟩ := tokenStep_of_read fine more
  obtain ⟨skipped, split, hpos, -⟩ := gap_split f.id pos b
  have front := gap_tiles here
  have apart := gap_apart f.id pos b
  rw [taken.step]
  refine ⟨?_, rfl, apart⟩
  obtain ⟨-, rest⟩ := slice_front (split.symm.trans here)
  rw [← hpos, taken.more] at rest
  obtain ⟨behind, htext⟩ := lexeme_prefix scope c tail
  obtain ⟨text, -⟩ := slice_front (htext.trans rest)
  rw [taken.found] at text
  exact front.append ⟨rfl, text, rfl⟩

/-- The tokens of a run lie edge to edge. Behind them there is only white space and comments, and
the end is behind the last byte. -/
theorem Runs.tiles {file : Nat} {ts : List Token} {stop : Span}
    (runs : Runs scope file pos b ts stop) (id : file = f.id) (here : b = f.content.drop pos)
    (inside : pos ≤ f.content.length) :
    Tiles f pos (ts.flatMap Token.pieces) (endOf pos ts) ∧
      (∀ t ∈ ts, t.leading.IsChain Trivia.Apart) ∧
      IsFiller (f.content.drop (endOf pos ts)) ∧ stop = .point f.id f.content.length := by
  subst id
  induction runs with
  | @eof pos b fine ended =>
    obtain ⟨gapFine, gapEnds⟩ := gap_of_eof fine ended
    obtain ⟨token, reached⟩ := read_eof fine ended
    obtain ⟨skipped, split, hpos, -⟩ := gap_split f.id pos b
    refine ⟨rfl, fun _ none => absurd none List.not_mem_nil, ?_, ?_⟩
    · rw [endOf, List.getLast?_nil, Option.map_none, Option.getD_none, ← here]
      exact isFiller_of_gap gapFine gapEnds
    · -- all bytes from here on are skipped
      have size := congrArg List.length (split.symm.trans here)
      rw [gapEnds, List.append_nil, List.length_drop] at size
      have behind : (read scope f.id pos b).pos = f.content.length := by omega
      rw [token, Token.eof, behind]
  | @token pos b ts stop fine more _ ih =>
    obtain ⟨tiles, stops, apart⟩ := read_tiles here fine more
    obtain ⟨taken, split, hpos⟩ := read_split scope f.id pos b
    obtain ⟨-, rest⟩ := slice_front (split.symm.trans here)
    have size := congrArg List.length (split.symm.trans here)
    rw [List.length_append, List.length_drop] at size
    rw [← hpos] at rest
    obtain ⟨later, chains, filler, ends⟩ := ih rest (by omega)
    rw [endOf_cons, stops]
    exact ⟨tiles.append later, List.forall_mem_cons.mpr ⟨apart, chains⟩, filler, ends⟩

end Scan

namespace Lexer
open Scan

/-- A lexer that keeps white space and comments, reads a file in any one scope and comes to no fault
hands out the whole file: its tokens and what stands before them lie edge to edge from the first
byte on, only white space and comments are left behind them, and the end stands behind all bytes,
without extent. -/
theorem drain_lossless (f : SourceFile) (scope : Scope)
    (fine : (drainIn f scope true).2.fault = none) :
    ∃ tokens,
      (drainIn f scope true).1 = tokens ++ [.eof ⟨f.id, f.content.length, f.content.length⟩] ∧
        f.Covered tokens := by
  obtain ⟨tokens, stop, runs, handed⟩ := drain_runs fine
  obtain ⟨tiles, apart, filler, rfl⟩ := runs.tiles (f := f) rfl rfl (Nat.zero_le _)
  have kept : tokens.map (shown true) = tokens := List.map_id _
  have text : tokens.flatMap Token.written = f.content.slice 0 (endOf 0 tokens) := by
    rw [← tiles.text, List.flatMap_assoc]
    exact List.flatMap_congr fun t _ => t.written_eq
  refine ⟨tokens, ?_, runs.kinds, text, tiles, apart, filler⟩
  rw [handed, kept]
  rfl

/-- ` a//c`, a newline, `<=/*b*/` and a newline behind a space. -/
def commentedFile : SourceFile :=
  ⟨0, "", [32, 97, 47, 47, 99, 10, 60, 61, 47, 42, 98, 42, 47, 32, 10], 0⟩

theorem drain_lossless_commented :
    (drainIn commentedFile .relational true).2.fault = none ∧
      ∃ tokens,
        (drainIn commentedFile .relational true).1 = tokens ++ [.eof ⟨0, 15, 15⟩] ∧
          commentedFile.Covered tokens := by
  have fine : (drainIn commentedFile .relational true).2.fault = none := by decide +kernel
  exact ⟨fine, drain_lossless commentedFile .relational fine⟩

end Lexer
end CircuitCompiler
