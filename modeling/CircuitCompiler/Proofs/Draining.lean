import CircuitCompiler.Proofs.Acceptance
import CircuitCompiler.Proofs.Places

/-!
# Lexing a source to its end

A lexer that is asked for all tokens of a range meets a fault or comes to the end. `Scan.Runs` says
what it reads in the second case, one token behind the other, with all that stands before each.

* `Lexer.drainUpTo_runs`: what a lexer without a fault has handed out;
* `Lexer.drainUpTo_fine`: a lexer over bytes that run to their end comes to no fault;
* `Scan.Runs.stream`, `Scan.runs_of_stream`: the run in a scope against the stream of the bytes.
-/

namespace CircuitCompiler

namespace Scan

/-- In a scope, the bytes from an offset on are read as these tokens, each with what stands before
it, and end at `stop` without a fault. -/
inductive Runs (scope : Scope) (file : Nat) : Nat → Bytes → List Token → Span → Prop
  | eof {pos : Nat} {b : Bytes} : (read scope file pos b).fault = none →
      (read scope file pos b).token.kind = .eof →
      Runs scope file pos b [] (read scope file pos b).token.span
  | token {pos : Nat} {b : Bytes} {ts : List Token} {stop : Span} :
      (read scope file pos b).fault = none → (read scope file pos b).token.kind ≠ .eof →
      Runs scope file (read scope file pos b).pos (read scope file pos b).rest ts stop →
      Runs scope file pos b ((read scope file pos b).token :: ts) stop

variable {scope : Scope} {file pos : Nat} {b : Bytes} {ts : List Token} {stop : Span}

/-- Where a run ends the gap has no fault and reaches the last byte. -/
theorem gap_of_eof (fine : (read scope file pos b).fault = none)
    (ended : (read scope file pos b).token.kind = .eof) :
    (gap file pos b).fault = none ∧ (gap file pos b).rest = [] := by
  cases fine_cases fine with
  | eof gapFine ends => exact ⟨gapFine, ends⟩
  | token c tail kind text value taken => exact absurd ended taken.kind_ne_eof

/-- A run has tokens only, neither an end nor a fault. -/
theorem Runs.kinds (runs : Runs scope file pos b ts stop) :
    ∀ t ∈ ts, t.kind ≠ .eof ∧ t.kind ≠ .invalid := by
  induction runs with
  | eof => exact fun _ none => absurd none List.not_mem_nil
  | token fine more _ ih => exact List.forall_mem_cons.mpr ⟨⟨more, (read_token fine more).2.1⟩, ih⟩

/-- The end does not depend on the scope. -/
theorem kind_read_eq_eof (scope : Scope) :
    (read scope file pos b).token.kind = .eof ↔ (read .general file pos b).token.kind = .eof := by
  rw [read_inScope scope]
  refine ⟨fun ended => Kind.eq_of_inScope_eq ended rfl, fun ended => ?_⟩
  simp only [Token.inScope, ended]
  rfl

/-- A run has the tokens of the stream, as the scope reads them. -/
theorem Runs.stream (runs : Runs scope file pos b ts stop) :
    (Stream.scan file pos b).stop = .eof stop ∧
      ts.map Token.bare = (Stream.scan file pos b).tokens.map (·.inScope scope) := by
  induction runs with
  | @eof pos b fine ended =>
    have same := read_inScope scope file pos b
    rw [same] at fine
    rw [Stream.scan_of_eof fine ((kind_read_eq_eof scope).mp ended), same]
    exact ⟨rfl, rfl⟩
  | @token pos b ts stop fine more _ ih =>
    have same := read_inScope scope file pos b
    rw [same] at fine ih
    rw [Stream.scan_of_token fine (mt (kind_read_eq_eof scope).mpr more)]
    refine ⟨ih.1, ?_⟩
    rw [List.map_cons, List.map_cons, ih.2, same]
    rfl

/-- Bytes whose stream ends without a fault run to their end in every scope. -/
theorem runs_of_stream (scope : Scope) (ends : (Stream.scan file pos b).stop = .eof stop) :
    ∃ ts, Runs scope file pos b ts stop := by
  fun_induction Stream.scan file pos b with
  | case1 pos b step more behind ih =>
    have same := read_inScope scope file pos b
    obtain ⟨ts, runs⟩ := ih ends
    have fine : (read scope file pos b).fault = none := by
      rw [same]
      exact more.1
    have go : Runs scope file (read scope file pos b).pos (read scope file pos b).rest ts stop := by
      rw [same]
      exact runs
    exact ⟨_, .token fine (mt (kind_read_eq_eof scope).mp more.2) go⟩
  | case2 => cases ends
  | case3 pos b step more fine =>
    have same := read_inScope scope file pos b
    have ended : step.token.kind = .eof := by
      by_contra other
      exact more ⟨fine, other⟩
    have span : (read scope file pos b).token.span = stop := by
      rw [same]
      exact Stop.eof.inj ends
    refine ⟨[], span ▸ .eof ?_ ((kind_read_eq_eof scope).mpr ended)⟩
    rw [same]
    exact fine

end Scan

namespace Lexer
open Scan

/-- A token as a lexer hands it out: without what stands before it, unless that is to be kept. -/
def shown (keepTrivia : Bool) (t : Token) : Token := if keepTrivia then t else t.bare

variable {lx : Lexer}

theorem readToken_of_fine (fresh : lx.fault = none) :
    lx.readToken =
      let step := Scan.read lx.scope lx.cursor.file.id lx.cursor.off lx.cursor.rest
      (shown lx.keepTrivia step.token,
        { lx with cursor := lx.cursor.reset step.pos, fault := step.fault }) := by
  rw [readToken, fresh]
  rfl

theorem next_of_level (empty : lx.look = none) (fresh : lx.fault = none) :
    lx.next =
      let step := Scan.read lx.scope lx.cursor.file.id lx.cursor.off lx.cursor.rest
      (shown lx.keepTrivia step.token,
        { lx with cursor := lx.cursor.reset step.pos, fault := step.fault }) :=
  (next_of_empty empty).trans (readToken_of_fine fresh)

theorem kind_shown (keepTrivia : Bool) (t : Token) : (shown keepTrivia t).kind = t.kind := by
  cases keepTrivia <;> rfl

theorem shown_eof (keepTrivia : Bool) (span : Span) : shown keepTrivia (.eof span) = .eof span := by
  cases keepTrivia <;> rfl

/-- The lexer behind all tokens is the one behind the last of them. -/
theorem behind_drainUpTo_succ (lx : Lexer) (fuel : Nat) :
    (lx.drainUpTo (fuel + 1)).2 =
      if lx.next.1.kind = .eof ∨ lx.next.1.kind = .invalid then lx.next.2
      else (lx.next.2.drainUpTo fuel).2 := by
  rw [drainUpTo]
  dsimp only
  split <;> rfl

/-- A lexer that has come to the end without a fault has handed out what its bytes run to. -/
theorem drainUpTo_runs (empty : lx.look = none) (fresh : lx.fault = none) {fuel : Nat}
    (enough : lx.cursor.rest.length < fuel) (fine : (lx.drainUpTo fuel).2.fault = none) :
    ∃ ts stop, Runs lx.scope lx.cursor.file.id lx.cursor.off lx.cursor.rest ts stop ∧
      (lx.drainUpTo fuel).1 = ts.map (shown lx.keepTrivia) ++ [.eof stop] := by
  -- each token takes a byte at least, so the fuel lasts for the bytes
  induction fuel generalizing lx with
  | zero => omega
  | succ fuel ih =>
    let step := Scan.read lx.scope lx.cursor.file.id lx.cursor.off lx.cursor.rest
    let behind : Lexer := { lx with cursor := lx.cursor.reset step.pos, fault := step.fault }
    have next : lx.next = (shown lx.keepTrivia step.token, behind) := next_of_level empty fresh
    rw [behind_drainUpTo_succ, next, kind_shown] at fine
    rw [drainUpTo_succ, next, kind_shown]
    by_cases ended : step.token.kind = .eof
    · rw [if_pos (Or.inl ended)] at fine ⊢
      refine ⟨[], _, .eof fine ended, ?_⟩
      obtain ⟨token, -⟩ := read_eof fine ended
      rw [token, shown_eof]
      rfl
    · by_cases broken : step.fault = none
      · have valid : step.token.kind ≠ .invalid := (read_token broken ended).2.1
        have rest : behind.cursor.rest = step.rest := rest_reset lx.cursor lx.scope _
        have shorter : step.rest.length < lx.cursor.rest.length := read_shortens broken ended
        rw [if_neg (not_or.mpr ⟨ended, valid⟩)] at fine ⊢
        obtain ⟨ts, stop, runs, handed⟩ := @ih behind empty broken (by rw [rest]; omega) fine
        rw [rest] at runs
        refine ⟨_, stop, .token broken ended runs, ?_⟩
        rw [handed]
        rfl
      · obtain ⟨e, he⟩ := Option.ne_none_iff_exists'.mp broken
        rw [if_pos (Or.inr (read_fault_kind he))] at fine
        exact absurd fine broken

/-- Over bytes that run to their end a lexer comes to no fault. -/
theorem drainUpTo_fine (empty : lx.look = none) (fresh : lx.fault = none) {fuel : Nat}
    {ts : List Token} {stop : Span}
    (runs : Runs lx.scope lx.cursor.file.id lx.cursor.off lx.cursor.rest ts stop) :
    (lx.drainUpTo fuel).2.fault = none := by
  induction fuel generalizing lx ts with
  | zero => exact fresh
  | succ fuel ih =>
    rw [behind_drainUpTo_succ, next_of_level empty fresh]
    dsimp only
    rw [kind_shown]
    cases runs with
    | eof fine ended => rwa [if_pos (Or.inl ended)]
    | token fine more runs =>
      rw [if_neg (not_or.mpr ⟨more, (read_token fine more).2.1⟩)]
      rw [← rest_reset lx.cursor lx.scope] at runs
      exact ih empty fine runs

/-- The tokens of a file in a scope, up to and including the end or the first fault, and the lexer
behind them. -/
def drainIn (f : SourceFile) (scope : Scope) (keepTrivia : Bool) : List Token × Lexer :=
  ((ofFile f keepTrivia).setScope scope).drain

/-- The fuel of a drain lasts for a whole file. -/
theorem drain_enough (f : SourceFile) (scope : Scope) (keepTrivia : Bool) :
    ((ofFile f keepTrivia).setScope scope).cursor.rest = f.content ∧
      f.content.length < ((ofFile f keepTrivia).setScope scope).cursor.file.content.length + 2 := by
  refine ⟨?_, Nat.lt_add_of_pos_right Nat.two_pos⟩
  simp [setScope, ofFile, Cursor.ofFile, Cursor.rest, Bytes.slice]

/-- A file whose bytes run to their end lexes without a fault. -/
theorem drain_fine {f : SourceFile} {scope : Scope} (keepTrivia : Bool) {ts : List Token}
    {stop : Span} (runs : Runs scope f.id 0 f.content ts stop) :
    (drainIn f scope keepTrivia).2.fault = none := by
  rw [← (drain_enough f scope keepTrivia).1] at runs
  exact drainUpTo_fine rfl rfl runs

/-- What a file that lexes without a fault is read as. -/
theorem drain_runs {f : SourceFile} {scope : Scope} {keepTrivia : Bool}
    (fine : (drainIn f scope keepTrivia).2.fault = none) :
    ∃ ts stop, Runs scope f.id 0 f.content ts stop ∧
      (drainIn f scope keepTrivia).1 = ts.map (shown keepTrivia) ++ [.eof stop] := by
  obtain ⟨rest, enough⟩ := drain_enough f scope keepTrivia
  obtain ⟨ts, stop, runs, handed⟩ := drainUpTo_runs rfl rfl (by rw [rest]; exact enough) fine
  rw [rest] at runs
  exact ⟨ts, stop, runs, handed⟩

end Lexer
end CircuitCompiler
