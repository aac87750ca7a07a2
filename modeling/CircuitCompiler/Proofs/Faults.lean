import CircuitCompiler.Proofs.Draining
import CircuitCompiler.Proofs.Ranges
import CircuitCompiler.Proofs.Reporting

/-!
# The first fault and the end

A lexer is asked on after a fault. It then reads over white space and comments only, and may come to
a comment without an end: a second fault, which it drops. The end of the source stays what it is,
too: behind it nothing is left that could be a fault.

* `Lexer.Does`: all that a call can do;
* `Lexer.journal_after`: of all faults that calls run into, the first is kept and reported, once;
* `Lexer.Does.fits`: what a token that is handed out says of its lexer;
* `Lexer.Does.ended`: one call at the end;
* `Lexer.fault_and_end_stay`: sequences of calls.
-/

namespace CircuitCompiler

/-! ## Keeping the first fault -/

/-- What is noted of the faults of a source: the first, and what was reported. -/
structure Journal where
  first : Option CompileError := none
  reports : List Diagnostic := []
  deriving DecidableEq, Repr

/-- Notes and reports a fault, unless there was one before. -/
def Journal.fail (j : Journal) (e : CompileError) : Journal :=
  if j.first.isSome then j else ⟨some e, j.reports ++ [e.diagnostic []]⟩

theorem Journal.foldl_fail_of_some {j : Journal} {e : CompileError} (had : j.first = some e)
    (faults : List CompileError) : faults.foldl fail j = j := by
  induction faults with
  | nil => rfl
  | cons e' rest ih =>
    have kept : j.fail e' = j := if_pos (by rw [had]; rfl)
    rw [List.foldl_cons, kept, ih]

/-! ## Single tokens -/

namespace Scan

variable {scope : Scope} {file pos : Nat} {b : Bytes}

/-- A token is invalid exactly if it is a fault. -/
theorem kind_read_eq_invalid :
    (read scope file pos b).token.kind = .invalid ↔ (read scope file pos b).fault ≠ none := by
  refine ⟨fun invalid fine => ?_, fun broken => ?_⟩
  · have more : (read scope file pos b).token.kind ≠ .eof := by
      rw [invalid]
      simp
    exact (read_token fine more).2.1 invalid
  · obtain ⟨e, he⟩ := Option.ne_none_iff_exists'.mp broken
    exact read_fault_kind he

/-- Behind the end nothing is left. -/
theorem rest_read_eq_nil (ended : (read scope file pos b).token.kind = .eof) :
    (read scope file pos b).fault = none ∧ (read scope file pos b).rest = [] := by
  have fine : (read scope file pos b).fault = none := by
    by_contra broken
    cases ended.symm.trans (kind_read_eq_invalid.mpr broken)
  obtain ⟨gapFine, gapEnds⟩ := gap_of_eof fine ended
  rw [read_of_empty scope gapFine gapEnds]
  exact ⟨rfl, rfl⟩

end Scan

namespace Lexer

/-! ## What a call does -/

/-- A call on a lexer answers like this and leads to that lexer. It has its token from the buffer or
reads it, or it changes the scope, which may put the buffered token back. -/
inductive Does (lx : Lexer) : Call → Option Token → Lexer → Prop
  | handOut {l : Lookahead} : lx.look = some l →
      Does lx .next (some l.token) { lx with look := none }
  | lookAgain {l : Lookahead} : lx.look = some l → Does lx .peek (some l.token) lx
  | read : lx.look = none → Does lx .next (some lx.readToken.1) lx.readToken.2
  | readAhead : lx.look = none → Does lx .peek (some lx.readToken.1) lx.holding
  | putBack {scope : Scope} {l : Lookahead} : lx.look = some l → lx.scope ≠ scope →
      l.token.kind.isScoped = true →
      Does lx (.setScope scope) none
        { lx with scope, cursor := lx.cursor.reset l.mark, look := none }
  | rescope {scope : Scope} :
      (∀ l ∈ lx.look, lx.scope ≠ scope → l.token.kind.isScoped = false) →
      Does lx (.setScope scope) none { lx with scope }

theorem does (lx : Lexer) (c : Call) : lx.Does c (lx.call c).1 (lx.call c).2 := by
  cases c with
  | next =>
    cases held : lx.look with
    | some l =>
      simp only [call, next, held]
      exact .handOut held
    | none =>
      simp only [call, next_of_empty held]
      exact .read held
  | peek =>
    cases held : lx.look with
    | some l =>
      simp only [call, peek, held]
      exact .lookAgain held
    | none =>
      simp only [call, peek_of_empty held]
      exact .readAhead held
  | setScope scope =>
    simp only [call, setScope]
    split
    · next l held =>
      split
      · next moved => exact .putBack held moved.1 moved.2
      · next stays =>
        refine .rescope fun l' held' other => ?_
        obtain rfl : l = l' := Option.some.inj (held.symm.trans held')
        exact Bool.eq_false_iff.mpr fun movable => stays ⟨other, movable⟩
    · next empty =>
      refine .rescope fun l held => ?_
      rw [empty] at held
      cases held

/-! ## The faults that calls run into -/

/-- What a lexer has noted. -/
def journal (lx : Lexer) : Journal := ⟨lx.fault, lx.diagnostics⟩

/-- The faults that reading the next token runs into: the one it ends with, or after a fault a
comment without an end. -/
def faultsAhead (lx : Lexer) : List CompileError :=
  let file := lx.cursor.file.id
  match lx.fault with
  | some _ => (Scan.gap file lx.cursor.off lx.cursor.rest).fault.toList
  | none => (Scan.read lx.scope file lx.cursor.off lx.cursor.rest).fault.toList

/-- The faults that a call runs into. One that has its token from the buffer reads nothing. -/
def faultsMet (lx : Lexer) : Call → List CompileError
  | .next | .peek => if lx.look.isSome then [] else lx.faultsAhead
  | .setScope _ => []

/-- All the faults that calls run into, whether one was there before or not. -/
def faultsAlong : Lexer → List Call → List CompileError
  | _, [] => []
  | lx, c :: rest => lx.faultsMet c ++ faultsAlong (lx.call c).2 rest

variable {lx lx' : Lexer} {c : Call} {answer : Option Token}

/-- After a fault every token that is read is invalid, and the fault stays. -/
theorem readToken_of_fault {e : CompileError} (broken : lx.fault = some e) :
    lx.readToken.1 = .invalid e.span ∧ lx.readToken.2.fault = some e := by
  unfold readToken
  rw [broken]
  exact ⟨rfl, rfl⟩

theorem readToken_journal (lx : Lexer) :
    lx.faultsAhead.foldl Journal.fail lx.journal = lx.readToken.2.journal := by
  cases had : lx.fault with
  | some e =>
    -- whatever the white space and comments end with is dropped
    rw [Journal.foldl_fail_of_some had, journal, journal, diagnostics, diagnostics, had,
      (readToken_of_fault had).2]
  | none =>
    rw [readToken_of_fine had]
    simp only [faultsAhead, journal, diagnostics, had]
    cases (Scan.read lx.scope lx.cursor.file.id lx.cursor.off lx.cursor.rest).fault <;> rfl

/-- One call notes the faults that it runs into. -/
theorem Does.journal (step : lx.Does c answer lx') :
    (lx.faultsMet c).foldl Journal.fail lx.journal = lx'.journal := by
  cases step with
  | handOut held | lookAgain held =>
    rw [faultsMet, held]
    rfl
  | read empty | readAhead empty =>
    rw [faultsMet, empty]
    exact readToken_journal lx
  | putBack | rescope => rfl

/-- A lexer has noted what its calls have run into. -/
theorem journal_after (lx : Lexer) (calls : List Call) :
    (lx.faultsAlong calls).foldl Journal.fail lx.journal = (lx.after calls).journal := by
  induction calls generalizing lx with
  | nil => rfl
  | cons c rest ih => rw [faultsAlong, List.foldl_append, (does lx c).journal, ih, after]

/-! ## What a token says of its lexer -/

/-- The token is invalid if there is a fault, and only then; and where it is the end, nothing is
left to be read. -/
structure Fits (lx : Lexer) (t : Token) : Prop where
  invalid : t.kind = .invalid ↔ lx.fault ≠ none
  eof : t.kind = .eof → lx.cursor.rest = [] ∧ t = .eof lx.cursor.point

/-- The buffered token fits the lexer that holds it. -/
def Coherent (lx : Lexer) : Prop := ∀ l ∈ lx.look, lx.Fits l.token

theorem coherent_of_empty (empty : lx.look = none) : lx.Coherent := by
  intro l held
  rw [empty] at held
  cases held

theorem readToken_fits (lx : Lexer) : lx.readToken.2.Fits lx.readToken.1 := by
  cases had : lx.fault with
  | some e =>
    obtain ⟨token, fault⟩ := readToken_of_fault had
    rw [token]
    refine ⟨⟨fun _ => ?_, fun _ => rfl⟩, fun ended => by cases ended⟩
    rw [fault]
    exact Option.some_ne_none e
  | none =>
    rw [readToken_of_fine had]
    constructor
    · rw [kind_shown]
      exact Scan.kind_read_eq_invalid
    · rw [kind_shown]
      intro ended
      obtain ⟨fine, rest⟩ := Scan.rest_read_eq_nil ended
      obtain ⟨token, -⟩ := Scan.read_eof fine ended
      refine ⟨(rest_reset lx.cursor lx.scope _).trans rest, ?_⟩
      dsimp only
      rw [token, shown_eof]
      rfl

/-- A call hands out a token that fits the lexer behind it, and what it buffers fits as well. -/
theorem Does.fits (step : lx.Does c answer lx') (coherent : lx.Coherent) :
    (∀ t, answer = some t → lx'.Fits t) ∧ lx'.Coherent := by
  cases step with
  | handOut held =>
    obtain ⟨invalid, eof⟩ := coherent _ held
    refine ⟨?_, coherent_of_empty rfl⟩
    rintro t ⟨⟩
    exact ⟨invalid, eof⟩
  | lookAgain held =>
    refine ⟨?_, coherent⟩
    rintro t ⟨⟩
    exact coherent _ held
  | read empty =>
    refine ⟨?_, coherent_of_empty ((readToken_look lx).trans empty)⟩
    rintro t ⟨⟩
    exact readToken_fits lx
  | readAhead empty =>
    obtain ⟨invalid, eof⟩ := readToken_fits lx
    constructor
    · rintro t ⟨⟩
      exact ⟨invalid, eof⟩
    · rintro l ⟨⟩
      exact ⟨invalid, eof⟩
  | putBack => exact ⟨fun t none => (by cases none), coherent_of_empty rfl⟩
  | rescope =>
    refine ⟨fun t none => (by cases none), fun l held => ?_⟩
    obtain ⟨invalid, eof⟩ := coherent l held
    exact ⟨invalid, eof⟩

theorem Coherent.after (coherent : lx.Coherent) (calls : List Call) : (lx.after calls).Coherent := by
  induction calls generalizing lx with
  | nil => exact coherent
  | cons c rest ih => exact ih ((does lx c).fits coherent).2

/-! ## After a fault -/

theorem Does.fault {e : CompileError} (step : lx.Does c answer lx') (broken : lx.fault = some e) :
    lx'.fault = some e := by
  cases step with
  | read | readAhead => exact (readToken_of_fault broken).2
  | handOut | lookAgain | putBack | rescope => exact broken

/-- After a fault calls hand out invalid tokens only, and it stays the fault of the lexer. -/
theorem after_fault (coherent : lx.Coherent) {e : CompileError} (broken : lx.fault = some e)
    (calls : List Call) :
    (lx.after calls).fault = some e ∧ ∀ t, some t ∈ lx.answers calls → t.kind = .invalid := by
  induction calls generalizing lx with
  | nil => exact ⟨broken, fun t mem => absurd mem List.not_mem_nil⟩
  | cons c rest ih =>
    obtain ⟨fits, coherent'⟩ := (does lx c).fits coherent
    have broken' := (does lx c).fault broken
    obtain ⟨stays, later⟩ := ih coherent' broken'
    refine ⟨stays, fun t mem => ?_⟩
    rcases List.mem_cons.mp mem with now | mem
    · refine (fits t now.symm).invalid.mpr ?_
      rw [broken']
      exact Option.some_ne_none e
    · exact later t mem

/-! ## Behind the end -/

/-- Nothing is left to be read, and the end is all that the lexer may hold. -/
structure Ended (lx : Lexer) (t : Token) : Prop where
  fault : lx.fault = none
  rest : lx.cursor.rest = []
  token : t = .eof lx.cursor.point
  look : ∀ l ∈ lx.look, l.token = t

variable {t : Token}

/-- At the end a lexer reads the end and stays where it is. -/
theorem Ended.readToken (ended : lx.Ended t) : lx.readToken = (t, lx) := by
  have nothing (file pos : Nat) : Scan.gap file pos [] = ⟨[], none, pos, []⟩ := by
    rw [Scan.gap]
    rfl
  rw [readToken_of_fine ended.fault, ended.rest,
    Scan.read_of_empty lx.scope (by rw [nothing]) (by rw [nothing]), nothing, ended.token,
    ← ended.fault]
  dsimp only
  rw [shown_eof]
  rfl

/-- Any call at the end answers with the end, if it answers, and stays at the end. -/
theorem Does.ended (step : lx.Does c answer lx') (ended : lx.Ended t) :
    (∀ u, answer = some u → u = t) ∧ lx'.Ended t := by
  cases step with
  | handOut held =>
    refine ⟨?_, ended.fault, ended.rest, ended.token, ?_⟩
    · rintro u ⟨⟩
      exact ended.look _ held
    · rintro l ⟨⟩
  | lookAgain held =>
    refine ⟨?_, ended⟩
    rintro u ⟨⟩
    exact ended.look _ held
  | read =>
    rw [ended.readToken]
    exact ⟨fun u same => (Option.some.inj same).symm, ended⟩
  | readAhead =>
    rw [holding, ended.readToken]
    refine ⟨fun u same => (Option.some.inj same).symm, ended.fault, ended.rest, ended.token, ?_⟩
    rintro l ⟨⟩
    rfl
  | putBack held _ movable =>
    -- the kind of the end does not depend on the scope
    rw [ended.look _ held, ended.token] at movable
    cases movable
  | rescope =>
    exact ⟨fun u none => (by cases none), ended.fault, ended.rest, ended.token, ended.look⟩

theorem after_ended (ended : lx.Ended t) (calls : List Call) :
    (lx.after calls).fault = none ∧ ∀ u, some u ∈ lx.answers calls → u = t := by
  induction calls generalizing lx with
  | nil => exact ⟨ended.fault, fun u mem => absurd mem List.not_mem_nil⟩
  | cons c rest ih =>
    obtain ⟨now, ended'⟩ := (does lx c).ended ended
    obtain ⟨stays, later⟩ := ih ended'
    refine ⟨stays, fun u mem => ?_⟩
    rcases List.mem_cons.mp mem with answer | mem
    · exact now u answer.symm
    · exact later u mem

/-- A lexer that has handed out the end is at the end. -/
theorem ended_of_next (coherent : lx.Coherent) (ended : lx.next.1.kind = .eof) :
    lx.next.2.Ended lx.next.1 := by
  have fits := ((does lx .next).fits coherent).1 _ rfl
  obtain ⟨rest, token⟩ := fits.eof ended
  refine ⟨?_, rest, token, ?_⟩
  · by_contra broken
    cases ended.symm.trans (fits.invalid.mpr broken)
  · intro l held
    rw [next_look] at held
    cases held

/-! ## Sequences of calls -/

/-- A lexer over a file or a range of it, behind any calls. Of the faults that they ran into it has
kept and reported the first, so there is one report at most. Once it has a fault, this is its fault
behind any further calls, and all tokens that they answer with are invalid; and a call that answers
with an invalid token leaves a fault. Once it has handed out the end, all further calls that answer
do so with the same token, and there is no fault. -/
theorem fault_and_end_stay (cursor : Cursor) (keepTrivia : Bool) (calls : List Call) :
    let start : Lexer := { cursor, keepTrivia }
    let lx := start.after calls
    ((start.faultsAlong calls).foldl Journal.fail {} = ⟨lx.fault, lx.diagnostics⟩ ∧
        lx.diagnostics.length ≤ 1) ∧
      (∀ e, lx.fault = some e → ∀ more,
        (lx.after more).fault = some e ∧ ∀ t, some t ∈ lx.answers more → t.kind = .invalid) ∧
      (∀ c t, (lx.call c).1 = some t → t.kind = .invalid → (lx.call c).2.fault ≠ none) ∧
      (lx.next.1.kind = .eof → ∀ more,
        (lx.next.2.after more).fault = none ∧
          ∀ t, some t ∈ lx.next.2.answers more → t = lx.next.1) := by
  intro start lx
  have coherent : lx.Coherent := (coherent_of_empty rfl).after calls
  refine ⟨⟨journal_after start calls, ?_⟩, ?_, ?_, ?_⟩
  · rw [diagnostics, Option.length_toList]
    split <;> omega
  · exact fun e broken more => after_fault coherent broken more
  · exact fun c t answer invalid => (((does lx c).fits coherent).1 t answer).invalid.mp invalid
  · exact fun ended more => after_ended (ended_of_next coherent ended) more

/-- Of the two faults in `$ /*` the second is met by the next call and dropped. -/
example :
    let start := ofFile ⟨0, "", [36, 32, 47, 42], 0⟩ false
    (start.faultsAlong [.peek, .next, .next]).map (·.span) = [⟨0, 0, 1⟩, ⟨0, 2, 4⟩] ∧
      (start.after [.peek, .next, .next]).diagnostics.map (·.primary) = [⟨0, 0, 1⟩] := by
  decide +kernel

end Lexer
end CircuitCompiler
