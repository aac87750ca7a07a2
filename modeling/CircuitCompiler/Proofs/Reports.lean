import CircuitCompiler.Proofs.Chunks
import CircuitCompiler.Proofs.ReportedComponent

/-!
# What reading a source reports

A range of a file is read as one component, and a file as a sequence of components, by parsers at
work. The parsers of a file share a lexer and the place they report to; each starts with fresh
declarations and without an error.

* `Component.report` and `Design.report`: the result and all reports;
* `report_once`: they come to what the grammar comes to, and report nothing, or the error alone.
-/

namespace CircuitCompiler

namespace Parser

/-- A parser that starts to read from a lexer. -/
def ofLexer (lx : Lexer) (source? : Option Bytes) : Parser where
  lexer := lx
  last := lx.cursor.point
  source? := source?
  bound := lx.cursor.file.content.length + 1

/-- The next parser on the lexer, which reports to the same place. -/
def fresh (p : Parser) : Parser :=
  { p with last := p.lexer.cursor.point, error? := none, widths := [], names := [] }

/-- The error of a parser that has failed; one without a cause, should it have none. -/
def failure (p : Parser) : CompileError := p.error?.getD ⟨.parseFailed, p.last⟩

/-- Reads a component. -/
def component (file : Nat) (p : Parser) : Except CompileError Component × Parser :=
  match Attempt.component file p with
  | (some c, p') => (.ok c, p')
  | (none, p') => (.error p'.failure, p')

/-- Reads components until the end of the source. -/
def components (file : Nat) : Nat → Parser → Design → Except CompileError Design × Parser
  | 0, p, _ => (.error p.failure, p)
  | rounds + 1, p, d =>
    let (t, p₁) := Attempt.ask Lexer.peek p
    if t.kind = .eof then (.ok d, p₁)
    else
      match p₁.fresh.component file with
      | (.error e, p₂) => (.error e, p₂)
      | (.ok c, p₂) =>
        match d.add? c with
        | some d' => components file rounds p₂ d'
        | none =>
          let e : CompileError := ⟨.duplicateComponent c.name, c.nameSpan⟩
          (.error e, { p₂ with reported := p₂.reported ++ [e.diagnostic []] })

end Parser

/-- Reads a range of a file as one component: the result and all reports. -/
def Component.report (f : SourceFile) (start stop : Nat) (keepText : Bool) :
    Except CompileError Component × List Diagnostic :=
  let p := Parser.ofLexer (.ofRange f start stop false) (f.kept? keepText)
  let run := p.component f.id
  (run.1, run.2.reported)

/-- Reads a file as a sequence of components: the result and all reports. -/
def Design.report (f : SourceFile) (keepText : Bool) :
    Except CompileError Design × List Diagnostic :=
  let p := Parser.ofLexer (.ofFile f false) (f.kept? keepText)
  let run := p.components f.id p.bound {}
  (run.1, run.2.reported)

/-- The bytes that a cursor has still to read, as a span. -/
def Cursor.range (c : Cursor) : Span := ⟨c.file.id, c.off, c.limit⟩

/-- A result comes without a report. An error has a cause of its own and lies in the range, and its
code, its place and its wording are those of the one report. -/
def Reported {α : Type} (range : Span) (told : List Diagnostic) : Except CompileError α → Prop
  | .ok _ => told = []
  | .error e => e.Located range ∧
      ∃ d, told = [d] ∧ d.code = e.code ∧ d.primary = e.span ∧ d.message = e.message

theorem Reported.once {α : Type} {range : Span} {e : CompileError} (located : e.Located range) :
    Reported (α := α) range [e.diagnostic []] (.error e) :=
  ⟨located, _, rfl, rfl, rfl, rfl⟩

namespace Parser

variable {range : Span} {n : Nat} {p : Parser} {r : Reading}

theorem Failed.failure {e : CompileError} (h : p.Failed e) : p.failure = e := by
  rw [Parser.failure, h.error]
  rfl

/-! ## Components -/

/-- What reading a component leaves: the parser has come to no fault or failed, as the reading of the
grammar has. -/
def Outcome (range : Span) (n : Nat) (ours : Except CompileError Component × Parser)
    (theirs : Except CompileError Component × Reading) : Prop :=
  ours.1 = theirs.1 ∧
    match theirs.1 with
    | .ok c => c.nameSpan.Inside range ∧ ours.2.lexer.fault = none ∧
        ours.2.Follows range n theirs.2
    | .error e => e.Located range ∧ ours.2.Failed e

theorem Outcome.reported {ours : Except CompileError Component × Parser}
    {theirs : Except CompileError Component × Reading} (h : Outcome range n ours theirs) :
    Reported range ours.2.reported ours.1 := by
  obtain ⟨result, p⟩ := ours
  obtain ⟨result', r⟩ := theirs
  obtain ⟨rfl, h⟩ : result = result' ∧ _ := h
  cases result with
  | ok c =>
    obtain ⟨-, clean, follows⟩ := h
    exact (follows.toHears.silent clean).2
  | error e =>
    obtain ⟨located, failed⟩ := h
    show Reported range p.reported (.error e)
    rw [failed.reported]
    exact .once located

theorem component_outcome {file : Nat} (follows : p.Follows range (n + 1) r) :
    Outcome range n (p.component file) (Parse.component file r) := by
  have ends : Ends range _ (Attempt.component file p) (Parse.component file r) :=
    agrees_component follows
  unfold component
  generalize Attempt.component file p = left at ends ⊢
  generalize Parse.component file r = right at ends ⊢
  cases ends with
  | ok leaves => exact ⟨rfl, leaves⟩
  | error failed located => exact ⟨congrArg _ failed.failure, located, failed⟩

/-- At a fault nothing can be read: the fault is the error. -/
theorem expect_of_fault {κ : Kind} {wanted : Wanted} {e : CompileError} (h : p.Hears r)
    (fault : r.fault? = some e) (valid : κ ≠ .invalid) :
    ∃ p', Attempt.expect κ wanted p = (none, p') ∧ p'.Failed e := by
  obtain ⟨t, p₁, run, kind, -, heard, -⟩ := h.peek
  obtain ⟨t', p₂, run', -, -, heard', error', -⟩ := heard.peek
  have broken : t.kind = .invalid := kind.trans (Reading.kind_of_fault? fault)
  have no : (t.kind == κ) = false := by
    rw [broken]
    exact beq_false_of_ne valid.symm
  rw [fault] at error'
  refine ⟨p₂, ?_, error', ?_⟩
  · show Attempt.andThen (Attempt.andThen Attempt.peek _) _ p = _
    simp only [Attempt.andThen, run, Attempt.succeed, no, Bool.false_eq_true, if_false]
    show Attempt.andThen Attempt.peek _ _ = _
    simp only [Attempt.andThen, run', Attempt.fail, error']
  · have lexer := heard'.error
    rw [error'] at lexer
    rcases lexer with none | same
    · cases none
    · rw [heard'.reported, Lexer.diagnostics, ← same]
      rfl

theorem component_of_fault {file : Nat} {e : CompileError} (h : p.Hears r)
    (fault : r.fault? = some e) (located : e.Located range) :
    Outcome range n (p.component file) (Parse.component file r) := by
  have stuck : ∃ p', Attempt.expect (.keyword .component) .component p = (none, p') ∧ p'.Failed e :=
    expect_of_fault h fault (by simp)
  obtain ⟨p', run, failed⟩ := stuck
  obtain ⟨tokens, stop⟩ := Reading.stop_of_fault? fault
  have broken : ¬r.current.kind = .keyword .component := by
    rw [Reading.kind_of_fault? fault]
    simp
  have left : p.component file = (.error e, p') := by
    have none : Attempt.component file p = (none, p') := by
      show Attempt.andThen _ _ p = _
      simp only [Attempt.andThen, run]
    simp only [component, none, failed.failure]
  have right : Parse.component file r = (.error e, r) := by
    show Parse.andThen _ _ r = _
    simp only [Parse.andThen, Parse.expect, if_neg broken, Parse.unexpected, Parse.failHere, tokens,
      stop]
  rw [left, right]
  exact ⟨rfl, located, failed⟩

/-! ## Sequences of components -/

/-- The next parser has looked at the first token of its component; it is where the next reading of
the grammar is. -/
theorem fresh_outcome {file : Nat} (follows : p.Follows range (n + 1) r)
    (more : r.current.kind ≠ .eof) :
    Outcome range n ((Attempt.ask Lexer.peek p).2.fresh.component file)
      (Parse.component file r.fresh) := by
  obtain ⟨-, -, gives, fault, point⟩ := follows.gives.peek
  have heard := follows.toHears.ask_peek
  have again : (Attempt.ask Lexer.peek p).2.fresh.Hears r.fresh :=
    ⟨heard.gives.congr rfl rfl rfl, .inl rfl, heard.reported⟩
  cases found : r.fault? with
  | some e =>
    have inside := follows.inside.stop
    simp only [(Reading.stop_of_fault? found).2] at inside
    exact component_of_fault again found inside
  | none =>
    have there : r.tokens ≠ [] := by
      intro none
      cases stop : r.stop with
      | eof span => exact more (by rw [Reading.current, none, stop]; rfl)
      | fault e => simp [Reading.fault?, none, stop] at found
    exact component_outcome {
      toHears := again
      last := point there
      widths := rfl
      names := rfl
      source? := follows.source?
      inside := follows.inside
      lastInside := follows.currentInside.behind
      few := follows.few
      bound := follows.bound }

theorem components_reported {file : Nat} (rounds : Nat) :
    ∀ {rounds' n : Nat} {p : Parser} {r : Reading} {d : Design}, n ≤ rounds → n ≤ rounds' →
      p.Follows range n r →
        (p.components file rounds d).1 = Design.parseFrom file rounds' r d ∧
          Reported range (p.components file rounds d).2.reported (p.components file rounds d).1 := by
  induction rounds with
  | zero =>
    intro rounds' n p r d enough _ follows
    have := follows.few
    omega
  | succ rounds ih =>
    intro rounds' n p r d enough enough' follows
    obtain ⟨m, rfl⟩ := follows.pos
    obtain ⟨less, rfl⟩ : ∃ less, rounds' = less + 1 := ⟨rounds' - 1, by omega⟩
    obtain ⟨kind, -, gives, fault, -⟩ := follows.gives.peek
    have asked : (Attempt.ask Lexer.peek p).1.kind = r.current.kind := kind
    rw [components, Design.parseFrom]
    dsimp only
    rw [asked]
    by_cases ended : r.current.kind = .eof
    · have fine : r.fault? = none := by
        cases found : r.fault? with
        | none => rfl
        | some e => exact absurd (ended.symm.trans (Reading.kind_of_fault? found)) (by simp)
      have clean : (Attempt.ask Lexer.peek p).2.lexer.fault = none := fault.trans fine
      rw [if_pos ended, if_pos ended]
      exact ⟨rfl, (follows.toHears.ask_peek.silent clean).2⟩
    · rw [if_neg ended, if_neg ended]
      have outcome : Outcome range m ((Attempt.ask Lexer.peek p).2.fresh.component file)
          (Parse.component file r.fresh) := fresh_outcome follows ended
      have told := outcome.reported
      generalize (Attempt.ask Lexer.peek p).2.fresh.component file = ours at *
      generalize Parse.component file r.fresh = theirs at *
      obtain ⟨result, p₂⟩ := ours
      obtain ⟨result', r₂⟩ := theirs
      obtain ⟨rfl, outcome⟩ : result = result' ∧ _ := outcome
      cases result with
      | error e => exact ⟨rfl, told⟩
      | ok c =>
        obtain ⟨inside, clean, follows⟩ := outcome
        dsimp only
        cases d.add? c with
        | some d' =>
          exact ih (Nat.le_of_succ_le_succ enough) (Nat.le_of_succ_le_succ enough') follows
        | none =>
          refine ⟨rfl, ?_⟩
          show Reported range (p₂.reported ++ _) (.error _)
          rw [(follows.toHears.silent clean).2]
          exact .once ⟨by simp, inside⟩

/-! ## Ranges and files -/

/-- A parser that starts to read from a cursor. -/
theorem follows_ofLexer {c : Cursor} {source? : Option Bytes} (order : c.off ≤ c.limit)
    (inside : c.limit ≤ c.file.content.length) :
    (ofLexer { cursor := c } source?).Follows c.range (c.file.content.length + 1)
      (.ofStream (.ofCursor c) c.point source?) := by
  have size : c.off + c.rest.length = c.limit := Chunk.length_slice _ order inside
  have stream : Stream.Inside c.range (.ofCursor c) := by
    have scanned := Stream.scan_inside c.file.id c.off c.rest
    rw [size] at scanned
    exact scanned
  have few : (Stream.ofCursor c).tokens.length < c.file.content.length + 1 := by
    have short := Stream.length_tokens_le c.file.id c.off c.rest
    rw [Stream.ofCursor]
    omega
  exact {
    gives := Lexer.gives_ofStream
    error := .inl rfl
    reported := rfl
    last := rfl
    widths := rfl
    names := rfl
    source? := rfl
    inside := stream
    lastInside := ⟨rfl, Nat.le_refl _, Nat.le_refl _, order⟩
    few := few
    bound := few }

end Parser

/-- Reading a range of a file as one component, and reading a file as a sequence of components, come
to what the grammar comes to. With a result nothing is reported. With an error, which never lacks a
cause and lies in what was read, there is one report, with the code, the place and the wording of the
error. -/
theorem report_once (f : SourceFile) (keepText : Bool) :
    (∀ start stop, let c := Cursor.ofRange f start stop
      (Component.report f start stop keepText).1 =
          (Parse.component f.id (.ofStream (.ofCursor c) c.point (f.kept? keepText))).1 ∧
        Reported c.range (Component.report f start stop keepText).2
          (Component.report f start stop keepText).1) ∧
    (Design.report f keepText).1 = Design.parse f keepText ∧
      Reported (Cursor.ofFile f).range (Design.report f keepText).2
        (Design.report f keepText).1 := by
  constructor
  · intro start stop c
    have follows : (Parser.ofLexer (.ofRange f start stop false) (f.kept? keepText)).Follows c.range
        (f.content.length + 1) (.ofStream (.ofCursor c) c.point (f.kept? keepText)) :=
      Parser.follows_ofLexer (Nat.min_le_right _ _) (Nat.min_le_right _ _)
    have outcome : Parser.Outcome c.range f.content.length
        ((Parser.ofLexer (.ofRange f start stop false) (f.kept? keepText)).component f.id)
        (Parse.component f.id (.ofStream (.ofCursor c) c.point (f.kept? keepText))) :=
      Parser.component_outcome follows
    exact ⟨outcome.1, outcome.reported⟩
  · let p := Parser.ofLexer (.ofFile f false) (f.kept? keepText)
    let r : Reading := .ofStream (.ofCursor (.ofFile f)) (Cursor.ofFile f).point (f.kept? keepText)
    have follows : p.Follows (Cursor.ofFile f).range (f.content.length + 1) r :=
      Parser.follows_ofLexer (Nat.zero_le _) (Nat.le_refl _)
    have run : (p.components f.id p.bound {}).1 = Design.parseFrom f.id (r.tokens.length + 1) r {} ∧
        Reported (Cursor.ofFile f).range (p.components f.id p.bound {}).2.reported
          (p.components f.id p.bound {}).1 :=
      Parser.components_reported p.bound follows.bound (Nat.le_refl _) follows.tight
    exact run

/-- A byte that begins no token is looked at where a part of the component may stand, and the grammar
does not complain about it a second time. -/
example : (Design.report ⟨0, "", Bytes.ofString "component A \x7b $", 0⟩ false).2 =
    [CompileError.diagnostic ⟨.unknownCharacter (Bytes.ofString "$"), ⟨0, 14, 15⟩⟩ []] := by
  decide +kernel

end CircuitCompiler
