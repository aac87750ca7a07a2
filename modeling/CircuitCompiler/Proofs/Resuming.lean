import CircuitCompiler.Proofs.Chunks
import CircuitCompiler.Proofs.Rounds
import CircuitCompiler.Proofs.Shapes

/-!
# Cutting with restarts

A file is cut by a loop that takes tokens from a lexer. A fault makes a lexer useless: from then on
it answers that every token is invalid. So at an invalid token the loop goes on with a new lexer,
right behind it, and the lexers together read the file from its start to its end.

* `Chunk.cuttingRound`: a round of the loop: it takes a token, and looks at the one behind
  `component`;
* `Lexer.bytesLeft`: the bytes that a lexer has before it;
* `Chunk.cutting_terminates`: the loop comes to the cuts of the file, and a round that goes on has
  fewer bytes before it.
-/

namespace CircuitCompiler

/-- A fault comes with a token that has a byte at least, and both end at the same place. -/
theorem Scan.read_fault_span {scope : Scope} {file pos : Nat} {b : Bytes} {e : CompileError}
    (h : (read scope file pos b).fault = some e) :
    (read scope file pos b).token.span.start < (read scope file pos b).token.span.stop ∧
      (read scope file pos b).token.span.stop = e.span.stop := by
  obtain ⟨-, order, ends⟩ := read_fault h
  cases fault_cases h with
  | gap found step =>
    rw [step]
    exact ⟨order, rfl⟩
  | lexeme c rest text cause faultAt found place step =>
    have size := lexeme_text_pos scope c rest
    rw [found] at size
    rw [ends, step]
    exact ⟨Nat.lt_add_of_pos_right size, rfl⟩

/-- What the scanner read when a stream is empty and ends the source. -/
theorem Stream.read_of_scan_eof {file pos : Nat} {b : Bytes} {span : Span}
    (h : scan file pos b = ⟨[], .eof span⟩) :
    (Scan.read .general file pos b).fault = none ∧
      (Scan.read .general file pos b).token.kind = .eof := by
  cases fine : (Scan.read .general file pos b).fault with
  | some e =>
    rw [scan_of_fault fine] at h
    cases h
  | none =>
    refine ⟨rfl, ?_⟩
    by_contra more
    rw [scan_of_token fine more] at h
    cases h

/-! ## Lexers over the rest of a file -/

namespace Lexer

/-- A lexer over what a file has from an offset on. -/
def ofRest (f : SourceFile) (pos : Nat) : Lexer := .ofRange f pos f.content.length false

/-- The bytes that a lexer has before it. The token that it holds is one it has not handed out. -/
def bytesLeft (lx : Lexer) : Nat :=
  match lx.look with
  | some l => lx.cursor.limit - l.mark
  | none => lx.cursor.limit - lx.cursor.off

/-- The lexer stands at an offset of the file; it may have looked at the token there. -/
def Stands (f : SourceFile) (pos : Nat) (lx : Lexer) : Prop :=
  lx = .ofRest f pos ∨ lx = (Lexer.ofRest f pos).holding

variable {f : SourceFile} {pos : Nat} {lx : Lexer}

theorem ofFile_eq (f : SourceFile) : Lexer.ofFile f false = .ofRest f 0 := by
  simp [ofFile, ofRest, ofRange, Cursor.ofFile, Cursor.ofRange]

theorem cursor_ofRest (inside : pos ≤ f.content.length) :
    (ofRest f pos).cursor = ⟨f, pos, f.content.length⟩ := by
  simp only [ofRest, ofRange, Cursor.ofRange, Nat.min_self, Nat.min_eq_left inside]

theorem Stands.bytesLeft (h : lx.Stands f pos) (inside : pos ≤ f.content.length) :
    lx.bytesLeft = f.content.length - pos := by
  have cursor := cursor_ofRest inside
  have place : lx.bytesLeft = (ofRest f pos).cursor.limit - (ofRest f pos).cursor.off := by
    rcases h with rfl | rfl <;> rfl
  rw [place, cursor]

/-- Whether it has looked ahead or not, a lexer goes on in the same way. -/
theorem Stands.next (h : lx.Stands f pos) : lx.next = (ofRest f pos).next := by
  rcases h with rfl | rfl <;> rfl

theorem next_ofRest (inside : pos ≤ f.content.length) :
    let step := Scan.read .general f.id pos (f.content.drop pos)
    (ofRest f pos).next = (step.token.bare, { ofRest f step.pos with fault := step.fault }) ∧
      step.pos ≤ f.content.length ∧ step.rest = f.content.drop step.pos := by
  intro step
  have rest : (ofRest f pos).cursor.rest = f.content.drop pos := by
    rw [cursor_ofRest inside, Cursor.rest, Bytes.slice, List.take_length]
  obtain ⟨taken, split, ends⟩ := Scan.read_split .general f.id pos (f.content.drop pos)
  have size := congrArg List.length split
  rw [List.length_drop, List.length_append] at size
  have upTo : step.pos ≤ f.content.length := by
    simp only [step]
    omega
  refine ⟨?_, upTo, ?_⟩
  · rw [next_of_fine ⟨rfl, rfl⟩ rfl rfl, rest, cursor_ofRest inside]
    show (step.token.bare, Lexer.mk ⟨f, step.pos, f.content.length⟩ .general false none step.fault) =
      (step.token.bare, Lexer.mk (ofRest f step.pos).cursor .general false none step.fault)
    rw [cursor_ofRest upTo]
  · have behind := Scan.drop_of_split split.symm
    rw [List.drop_drop, ← ends] at behind
    exact behind.symm

/-- Taking a token that is there: the lexer stands right behind it. -/
theorem Stands.next_of_token {t : Token} {ts : List Token} {stop : Stop} (h : lx.Stands f pos)
    (inside : pos ≤ f.content.length)
    (scanned : Stream.scan f.id pos (f.content.drop pos) = ⟨t :: ts, stop⟩) :
    ∃ pos', lx.next = (t, .ofRest f pos') ∧ pos < pos' ∧ pos' ≤ f.content.length ∧
      Stream.scan f.id pos' (f.content.drop pos') = ⟨ts, stop⟩ := by
  obtain ⟨fine, more, token, later⟩ := Stream.read_of_scan_cons scanned
  obtain ⟨next, inside', rest⟩ := next_ofRest inside
  have shorter := Scan.read_shortens fine more
  rw [rest, List.length_drop, List.length_drop] at shorter
  rw [rest] at later
  refine ⟨_, ?_, by omega, inside', later⟩
  rw [h.next, next, token, fine]
  rfl

end Lexer

/-! ## Rounds -/

namespace Chunk

open Cutting

/-- A round of the loop that cuts a file. Behind an invalid token, one byte further on at least, it
goes on with a new lexer, where the file has not ended. -/
def cuttingRound (f : SourceFile) : Lexer × Cutting → Turn (Lexer × Cutting) Cutting :=
  fun (lx, s) =>
    let (t, lx) := lx.next
    match t.kind with
    | .eof => .leave s
    | .invalid =>
      let resume := max t.span.stop (t.span.start + 1)
      if f.content.length ≤ resume then .leave s.begun
      else .again (.ofRange f resume f.content.length false, s.begun)
    | .symbol .lbrace => .again (lx, { s with depth := s.depth + 1 }.begun)
    | .symbol .rbrace => .again (lx, { s with depth := s.depth - 1 }.begun)
    | .keyword .component =>
      if s.depth = 0 then
        let (behind, lx) := lx.peek
        .again (lx, s.cut t.span.start (nameIn [behind]))
      else .again (lx, s.begun)
    | _ => .again (lx, s.begun)

section Rounds

variable {f : SourceFile} {pos : Nat} {lx : Lexer} {t : Token} {ts : List Token} {stop : Stop}

theorem round_of_eof {span : Span} (inside : pos ≤ f.content.length) (stands : lx.Stands f pos)
    (h : Stream.scan f.id pos (f.content.drop pos) = ⟨[], .eof span⟩) (s : Cutting) :
    cuttingRound f (lx, s) = .leave s := by
  obtain ⟨-, kind⟩ := Stream.read_of_scan_eof h
  obtain ⟨next, -⟩ := Lexer.next_ofRest inside
  simp only [cuttingRound, stands.next, next, Token.bare, kind]

theorem round_of_fault {e : CompileError} (inside : pos ≤ f.content.length)
    (stands : lx.Stands f pos)
    (h : Stream.scan f.id pos (f.content.drop pos) = ⟨[], .fault e⟩) (s : Cutting) :
    cuttingRound f (lx, s) = if f.content.length ≤ e.span.stop then .leave s.begun
      else .again (.ofRange f e.span.stop f.content.length false, s.begun) := by
  have fault := Stream.read_of_scan_fault h
  obtain ⟨order, ends⟩ := Scan.read_fault_span fault
  obtain ⟨next, -⟩ := Lexer.next_ofRest inside
  -- the token has a byte at least, so the new lexer starts right behind it
  have resume := Nat.max_eq_left (Nat.succ_le_of_lt order)
  simp only [cuttingRound, stands.next, next, Token.bare, Scan.read_fault_kind fault]
  rw [resume, ends]

/-- The name that is looked for behind `component` is that of the next token of the stream. -/
theorem nameIn_peek (inside : pos ≤ f.content.length)
    (h : Stream.scan f.id pos (f.content.drop pos) = ⟨ts, stop⟩) :
    nameIn [(Lexer.ofRest f pos).peek.1] = nameIn ts := by
  obtain ⟨next, -⟩ := Lexer.next_ofRest inside
  have look : (Lexer.ofRest f pos).peek.1 = (Lexer.ofRest f pos).next.1 := rfl
  rw [look, next]
  cases ts with
  | cons t ts =>
    obtain ⟨-, -, token, -⟩ := Stream.read_of_scan_cons h
    rw [token]
    rfl
  | nil =>
    have nameless : ∀ {k : Kind},
        (Scan.read .general f.id pos (f.content.drop pos)).token.kind = k → k ≠ .ident →
          nameIn [(Scan.read .general f.id pos (f.content.drop pos)).token.bare] = nameIn [] :=
      fun kind other => if_neg fun ident => other (kind.symm.trans ident)
    cases stop with
    | eof span => exact nameless (Stream.read_of_scan_eof h).2 (by simp)
    | fault e => exact nameless (Scan.read_fault_kind (Stream.read_of_scan_fault h)) (by simp)

/-- A round at a token goes on behind it, as walking over the tokens does. -/
theorem round_of_next {pos' : Nat} (next : lx.next = (t, .ofRest f pos'))
    (name : nameIn [(Lexer.ofRest f pos').peek.1] = nameIn ts) (more : t.kind ≠ .eof)
    (valid : t.kind ≠ .invalid) (s : Cutting) :
    ∃ lx' s', cuttingRound f (lx, s) = .again (lx', s') ∧ lx'.Stands f pos' ∧
      s.walk (t :: ts) = s'.walk ts := by
  have level : (Lexer.ofRest f pos').Stands f pos' := .inl rfl
  simp only [cuttingRound, walk, next]
  cases kind : t.kind with
  | eof => exact absurd kind more
  | invalid => exact absurd kind valid
  | symbol b => cases b <;> exact ⟨_, _, rfl, level, rfl⟩
  | keyword w =>
    cases w with
    | component =>
      dsimp only
      by_cases top : s.depth = 0
      · rw [if_pos top, if_pos top, name]
        exact ⟨_, _, rfl, .inr rfl, rfl⟩
      · rw [if_neg top, if_neg top]
        exact ⟨_, _, rfl, level, rfl⟩
    | _ => exact ⟨_, _, rfl, level, rfl⟩
  | _ => exact ⟨_, _, rfl, level, rfl⟩

end Rounds

/-- The loop that cuts a file, from a place in it. -/
theorem terminates_walkFile {f : SourceFile} (n : Nat) :
    ∀ {pos fuel : Nat} {lx : Lexer} {s : Cutting}, pos ≤ f.content.length →
      f.content.length - pos < n → f.content.length - pos < fuel → lx.Stands f pos →
        Terminates (cuttingRound f) (fun s => s.1.bytesLeft) (lx, s) (walkFile f fuel pos s) := by
  -- on the bytes of the file from there on, of which every round takes one at least
  induction n with
  | zero => exact fun _ less => absurd less (Nat.not_lt_zero _)
  | succ n ih =>
    intro pos fuel lx s inside less enough stands
    obtain ⟨fuel, rfl⟩ : ∃ fuel', fuel = fuel' + 1 := ⟨fuel - 1, by omega⟩
    obtain ⟨ts, stop, h⟩ : ∃ ts stop, Stream.scan f.id pos (f.content.drop pos) = ⟨ts, stop⟩ :=
      ⟨_, _, rfl⟩
    have place := stands.bytesLeft inside
    cases ts with
    | nil =>
      cases stop with
      | eof span =>
        rw [walkFile_eof h]
        exact .leaves (round_of_eof inside stands h s)
      | fault e =>
        obtain ⟨start, order, -⟩ := Stream.scan_fault (e := e) (by rw [h])
        have round := round_of_fault inside stands h s
        rw [walkFile_fault h]
        by_cases ended : f.content.length ≤ e.span.stop
        · rw [if_pos ended] at round ⊢
          exact .leaves round
        · rw [if_neg ended] at round ⊢
          have inside' := Nat.le_of_not_le ended
          have level : (Lexer.ofRest f e.span.stop).Stands f e.span.stop := .inl rfl
          have place' := level.bytesLeft inside'
          refine .goesOn round ?_ (ih inside' (by omega) (by omega) level)
          show (Lexer.ofRest f e.span.stop).bytesLeft < lx.bytesLeft
          omega
    | cons t ts =>
      obtain ⟨pos', next, further, inside', h'⟩ := stands.next_of_token inside h
      obtain ⟨-, -, more, valid⟩ := Stream.scan_token (t := t) (by rw [h]; exact List.mem_cons_self)
      obtain ⟨lx', s', round, stands', walked⟩ :=
        round_of_next next (nameIn_peek inside' h') more valid s
      have place' := stands'.bytesLeft inside'
      have onward : walkFile f (fuel + 1) pos s = walkFile f (fuel + 1) pos' s' := by
        simp only [walkFile, h, h', walked]
      rw [onward]
      refine .goesOn round ?_ (ih inside' (by omega) (by omega) stands')
      dsimp only
      omega

/-- Cutting comes to the cuts of the file. -/
theorem cutting_terminates (f : SourceFile) :
    ∃ s : Cutting, s.cuts = cuts f ∧
      Terminates (cuttingRound f) (fun s => s.1.bytesLeft) (.ofFile f false, {}) s :=
  ⟨walkFile f (f.content.length + 1) 0 {}, rfl,
    terminates_walkFile (f.content.length + 1) (Nat.zero_le _) (Nat.lt_succ_self _)
      (Nat.lt_succ_self _) (.inl (Lexer.ofFile_eq f))⟩

end Chunk
end CircuitCompiler
