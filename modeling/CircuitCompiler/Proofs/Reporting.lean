import CircuitCompiler.Component.Parse
import CircuitCompiler.Proofs.Places
import CircuitCompiler.Proofs.Tracking

/-!
# Parsers that report

A parser at work takes its tokens from a lexer, which reads no further than it is asked to and
reports a fault when it comes to it. The parser reports the complaints of the grammar to the same
place, but only the first error of all. So a fault that was looked at must not be followed by a
complaint, and a step that fails must have left an error.

`Parser.Agrees` says this of a step, next to the step of the grammar that reads from a list of
tokens: both come to the same result, or both fail, with an error of a place in the range that is
read, of which there is exactly one report.

* `Lexer.Gives`: what a lexer has still to hand out;
* `Parser.Follows`: a parser and a reading at the same place, where all that was reported is the
  fault that the lexer has come to;
* `Parser.Agrees` and its rules for the single steps.
-/

namespace CircuitCompiler

/-! ## Lexers and readings -/

/-- The fault that a reading has come to. -/
def Reading.fault? (r : Reading) : Option CompileError :=
  match r.tokens, r.stop with
  | [], .fault e => some e
  | _, _ => none

theorem Reading.fault?_of_tokens {r : Reading} (more : r.tokens ≠ []) : r.fault? = none := by
  unfold fault?
  split
  · next none _ => exact absurd none more
  · rfl

theorem Reading.stop_of_fault? {r : Reading} {e : CompileError} (h : r.fault? = some e) :
    r.tokens = [] ∧ r.stop = .fault e := by
  unfold fault? at h
  split at h
  · next tokens stop =>
    cases h
    exact ⟨tokens, stop⟩
  · cases h

theorem Reading.kind_of_fault? {r : Reading} {e : CompileError} (h : r.fault? = some e) :
    r.current.kind = .invalid := by
  obtain ⟨tokens, stop⟩ := stop_of_fault? h
  rw [current, tokens, stop]
  rfl

namespace Lexer

/-- The lexer has still to hand out the tokens of the reading, as its scope reads them, and to end
as it does. -/
def Gives (lx : Lexer) (r : Reading) : Prop :=
  ∃ base : Lexer, base.Plain ∧ base.fault = none ∧ base.keepTrivia = false ∧
    Stream.ofCursor base.cursor = ⟨r.tokens, r.stop⟩ ∧ base.Shows r.scope lx

/-- A new lexer gives the stream of its cursor. -/
theorem gives_ofStream {c : Cursor} {start : Span} {source? : Option Bytes} :
    Lexer.Gives { cursor := c } (.ofStream (.ofCursor c) start source?) :=
  ⟨{ cursor := c }, ⟨rfl, rfl⟩, rfl, rfl, rfl, .level⟩

variable {lx : Lexer} {r : Reading}

theorem Gives.scope (h : lx.Gives r) : lx.scope = r.scope := by
  obtain ⟨base, plain, -, -, -, shows_⟩ := h
  cases shows_ with
  | level => rfl
  | ahead => exact readToken_scope _

/-- A lexer depends on no more of a reading than its tokens, its end and its scope. -/
theorem Gives.congr {r' : Reading} (h : lx.Gives r) (tokens : r'.tokens = r.tokens)
    (stop : r'.stop = r.stop) (scope : r'.scope = r.scope) : lx.Gives r' := by
  unfold Gives
  rw [tokens, stop, scope]
  exact h

theorem Gives.setScope (h : lx.Gives r) (scope : Scope) :
    (lx.setScope scope).Gives { r with scope } := by
  obtain ⟨base, plain, fine, bare, stream, shows_⟩ := h
  exact ⟨base, plain, fine, bare, stream, setScope_shows plain shows_ scope⟩

theorem setScope_fault (lx : Lexer) (scope : Scope) : (lx.setScope scope).fault = lx.fault := by
  unfold Lexer.setScope
  dsimp only
  split
  · split <;> rfl
  · rfl

/-- What a plain lexer reads first of a stream. -/
structure Reads (base : Lexer) (ts : List Token) (stop : Stop) : Prop where
  kind : base.next.1.kind = (ts.headD stop.token).kind
  fault : base.next.2.fault = (Reading.fault? { tokens := ts, stop, last := .zero })
  token : base.next.2.fault = none → base.next.1 = ts.headD stop.token
  behind : base.next.2.fault = none → ts ≠ [] →
    base.next.2.cursor.point =
        .point (ts.headD stop.token).span.file (ts.headD stop.token).span.stop ∧
      Stream.ofCursor base.next.2.cursor = ⟨ts.tail, stop⟩

theorem reads_of_stream {base : Lexer} {ts : List Token} {stop : Stop} (plain : base.Plain)
    (fine : base.fault = none) (bare : base.keepTrivia = false)
    (stream : Stream.ofCursor base.cursor = ⟨ts, stop⟩) : base.Reads ts stop := by
  let step := Scan.read .general base.cursor.file.id base.cursor.off base.cursor.rest
  let behind : Lexer := { base with cursor := base.cursor.reset step.pos, fault := step.fault }
  have next : base.next = (step.token.bare, behind) := next_of_fine plain fine bare
  have rest : behind.cursor.rest = step.rest := rest_reset base.cursor .general _
  rw [Stream.ofCursor] at stream
  cases broken : step.fault with
  | some e =>
    rw [Stream.scan_of_fault broken] at stream
    cases stream
    have fault : base.next.2.fault = some e := by rw [next]; exact broken
    refine ⟨?_, fault, ?_, ?_⟩
    · rw [next]
      exact Scan.read_fault_kind broken
    · rw [fault]
      exact fun none => by cases none
    · rw [fault]
      exact fun none => by cases none
  | none =>
    have fault : base.next.2.fault = none := by rw [next]; exact broken
    by_cases ended : step.token.kind = .eof
    · have token : step.token.bare = .eof step.token.span := by
        obtain ⟨token, -⟩ := Scan.read_eof broken ended
        simp only [step, token]
        rfl
      rw [Stream.scan_of_eof broken ended] at stream
      cases stream
      refine ⟨?_, fault, fun _ => ?_, fun _ more => absurd rfl more⟩
      · rw [next]
        exact ended
      · rw [next]
        exact token
    · rw [Stream.scan_of_token broken ended] at stream
      cases stream
      have span : step.token.bare.span = ⟨base.cursor.file.id, _, step.pos⟩ :=
        (Scan.read_token broken ended).1
      refine ⟨by rw [next]; rfl, fault, fun _ => by rw [next]; rfl, fun _ _ => ⟨?_, ?_⟩⟩
      · rw [next]
        show _ = Span.point step.token.bare.span.file step.token.bare.span.stop
        rw [span]
        rfl
      · rw [next, Stream.ofCursor, rest]
        rfl

theorem next_look (lx : Lexer) : lx.next.2.look = none := by
  unfold next
  split
  · rfl
  · next empty => rw [readToken_look, empty]

theorem peek_look (lx : Lexer) : lx.peek.2.look ≠ none := by
  unfold peek
  split
  · next l held =>
    rw [held]
    exact Option.some_ne_none l
  · exact Option.some_ne_none _

theorem holding_under {base : Lexer} (plain : base.Plain) (scope : Scope) :
    (base.under scope).holding.fault = base.next.2.fault ∧
      (base.under scope).holding.cursor = base.next.2.cursor := by
  rw [next_of_empty plain.look]
  simp only [holding, readToken_under plain scope]
  exact ⟨rfl, rfl⟩

/-- A lexer has come to the fault of the reading, or to none yet. -/
theorem Gives.fault (h : lx.Gives r) : lx.fault = none ∨ lx.fault = r.fault? := by
  obtain ⟨base, plain, fine, bare, stream, shows_⟩ := h
  cases shows_ with
  | level => exact .inl fine
  | ahead =>
    right
    rw [(holding_under plain r.scope).1]
    exact (reads_of_stream plain fine bare stream).fault

/-- Looking at the next token: the lexer comes to a fault if that is what is next. -/
theorem Gives.peek (h : lx.Gives r) :
    lx.peek.1.kind = r.current.kind ∧ (r.fault? = none → lx.peek.1 = r.current) ∧
      lx.peek.2.Gives r ∧ lx.peek.2.fault = r.fault? ∧
      (r.tokens ≠ [] →
        lx.peek.2.cursor.point = .point r.current.span.file r.current.span.stop) := by
  obtain ⟨base, plain, fine, bare, stream, shows_⟩ := h
  obtain ⟨token, behind⟩ := peek_shows plain shows_
  have reads := reads_of_stream plain fine bare stream
  have fault : base.next.2.fault = r.fault? := reads.fault
  -- the lexer that has looked holds the token
  have held : lx.peek.2 = (base.under r.scope).holding := by
    have full := peek_look lx
    generalize lx.peek.2 = lx' at behind full
    cases behind with
    | level => exact absurd plain.look full
    | ahead => rfl
  obtain ⟨heldFault, heldCursor⟩ := holding_under plain r.scope
  refine ⟨?_, fun none => ?_, ⟨base, plain, fine, bare, stream, behind⟩, ?_, fun more => ?_⟩
  · rw [token]
    exact congrArg (Kind.inScope r.scope) reads.kind
  · rw [token, reads.token (fault.trans none)]
    rfl
  · rw [held, heldFault, fault]
  · have none := Reading.fault?_of_tokens more
    rw [held, heldCursor]
    exact (reads.behind (fault.trans none) more).1

/-- Taking a token that is there: the lexer comes to no fault. -/
theorem Gives.next (h : lx.Gives r) {t : Token} {rest : List Token} (ht : r.tokens = t :: rest) :
    lx.next.1 = r.current ∧ r.current.kind ≠ .eof ∧ r.current.kind ≠ .invalid ∧
      lx.next.2.Gives { r with tokens := rest, last := t.span } ∧ lx.next.2.fault = none := by
  obtain ⟨base, plain, fine, bare, stream, shows_⟩ := h
  obtain ⟨token, behind⟩ := next_shows plain shows_
  have reads := reads_of_stream plain fine bare stream
  have more : r.tokens ≠ [] := by simp [ht]
  have none : base.next.2.fault = none := reads.fault.trans (Reading.fault?_of_tokens more)
  have plain' : base.next.2.Plain := by
    rw [next_of_empty plain.look]
    exact plain.readToken
  have bare' : base.next.2.keepTrivia = false := by
    rw [next_of_fine plain fine bare]
    exact bare
  -- the lexer that has taken a token holds none
  have level : lx.next.2 = base.next.2.under r.scope := by
    have empty := next_look lx
    generalize lx.next.2 = lx' at behind empty
    cases behind with
    | level => rfl
    | ahead => cases empty
  have kinds : t.kind ≠ .eof ∧ t.kind ≠ .invalid := by
    have mem : t ∈ (Stream.ofCursor base.cursor).tokens := by
      rw [stream, ht]
      exact List.mem_cons_self
    exact (Stream.scan_token mem).2.2
  refine ⟨?_, ?_, ?_, ⟨base.next.2, plain', none, bare', ?_, behind⟩, ?_⟩
  · rw [token, reads.token none]
    rfl
  · rw [Reading.current_of_tokens ht]
    exact fun eof => kinds.1 (Kind.eq_of_inScope_eq eof rfl)
  · rw [Reading.current_of_tokens ht]
    exact fun invalid => kinds.2 (Kind.eq_of_inScope_eq invalid rfl)
  · rw [(reads.behind none more).2, ht]
    rfl
  · rw [level]
    exact none

end Lexer

/-! ## Parsers at work -/

/-- A parser at work: the lexer it takes tokens from and what it keeps in mind. -/
structure Parser where
  lexer : Lexer
  /-- The span of the last token taken. -/
  last : Span
  /-- The first error, of the lexer or of the grammar. -/
  error? : Option CompileError := none
  /-- All that the lexer and the parser have reported. -/
  reported : List Diagnostic := []
  /-- The vectors declared so far. -/
  widths : Widths := []
  /-- The names declared so far and where. -/
  names : List (String × Span) := []
  /-- The source text, if raw blocks are to keep theirs. -/
  source? : Option Bytes := none
  /-- More than the tokens that are left, which bounds the rounds of all loops. -/
  bound : Nat

/-- A step of a parser at work. A step that fails has no result, and the parser has the error. -/
def Attempt (α : Type) : Type := Parser → Option α × Parser

namespace Attempt

/-- A step that takes nothing. -/
def succeed {α : Type} (a : α) : Attempt α := fun p => (some a, p)

/-- One step after another; the first failure ends both. -/
def andThen {α β : Type} (x : Attempt α) (f : α → Attempt β) : Attempt β := fun p =>
  match x p with
  | (some a, p') => f a p'
  | (none, p') => (none, p')

instance : Monad Attempt where
  pure := succeed
  bind := andThen

/-- Fails and reports it, unless there is an error already. -/
def fail {α : Type} (cause : Cause) (span : Span) : Attempt α := fun p =>
  match p.error? with
  | some _ => (none, p)
  | none =>
    let e : CompileError := ⟨cause, span⟩
    (none, { p with error? := some e, reported := p.reported ++ [e.diagnostic []] })

/-- Asks the lexer for a token; a fault that it comes to is reported. -/
def ask (call : Lexer → Token × Lexer) (p : Parser) : Token × Parser :=
  let (t, lexer) := call p.lexer
  let news := if p.lexer.fault.isNone then lexer.diagnostics else []
  (t, { p with lexer, reported := p.reported ++ news })

/-- The token that comes next. A fault that is looked at is the error, if there is none yet. -/
def peek : Attempt Token := fun p =>
  let (t, p) := ask Lexer.peek p
  if t.kind = .invalid ∧ p.error? = none then (some t, { p with error? := p.lexer.fault })
  else (some t, p)

/-- Whether the next token is of a kind. -/
def isAt (k : Kind) : Attempt Bool := do
  let t ← peek
  succeed (t.kind == k)

/-- Takes the next token. -/
def advance : Attempt Token := fun p =>
  let (t, p) := ask Lexer.next p
  if t.kind = .eof ∨ t.kind = .invalid then (some t, p) else (some t, { p with last := t.span })

/-- Fails because the next token is not what the grammar wants. -/
def unexpected {α : Type} (wanted : Wanted) : Attempt α := do
  let t ← peek
  fun p =>
    let span := if t.kind == .eof && 0 < p.last.stop then .point p.last.file p.last.stop else t.span
    fail (.unexpected wanted t.describe) span p

/-- Takes a token of a kind, or fails. -/
def expect (k : Kind) (wanted : Wanted) : Attempt Token := do
  if ← isAt k then advance else unexpected wanted

/-- Runs a step in a scope and returns to the scope before, also when the step fails. -/
def withScope {α : Type} (scope : Scope) (x : Attempt α) : Attempt α := fun p =>
  let (result, p') := x { p with lexer := p.lexer.setScope scope }
  (result, { p' with lexer := p'.lexer.setScope p.lexer.scope })

/-- The scope in force. -/
def currentScope : Attempt Scope := fun p => (some p.lexer.scope, p)

/-- The span of the last token taken. -/
def lastSpan : Attempt Span := fun p => (some p.last, p)

/-- Declares a name of the component; it must be new. -/
def declare (name : String) (span : Span) : Attempt Unit := fun p =>
  match p.names.lookup name with
  | some first => fail (.duplicateDeclaration name first.start) span p
  | none => (some (), { p with names := p.names ++ [(name, span)] })

/-- Records a vector. -/
def declareWidth (name : String) (width : Width) : Attempt Unit := fun p =>
  (some (), { p with widths := p.widths.declare name width })

/-- Whether a name is a vector declared so far. -/
def isVector (name : String) : Attempt Bool := fun p => (some (p.widths.has name), p)

/-- The source text between two offsets, if raw blocks keep theirs. -/
def sourceBetween (start stop : Nat) : Attempt Bytes := fun p =>
  (some ((p.source?.map fun s => s.slice start stop).getD []), p)

/-- A loop of as many rounds as there can be. -/
def bounded {α : Type} (loop : Nat → Attempt α) : Attempt α := fun p => loop p.bound p

/-- What a loop does when its rounds are spent: it fails, and leaves no error. -/
def giveUp {α : Type} : Attempt α := fun p => (none, p)

/-- Repeats a step until a closing token is next. -/
def untilAt {α : Type} (close : Kind) (step : List α → Attempt α) :
    Nat → List α → Attempt (List α)
  | 0, _ => giveUp
  | rounds + 1, done => do
    if ← isAt close then succeed done
    else
      let a ← step done
      untilAt close step rounds (done ++ [a])

/-- Repeats a step, which sees the results so far, until a closing token is next. -/
def manyUntil {α : Type} (close : Kind) (step : List α → Attempt α) : Attempt (List α) :=
  bounded fun rounds => untilAt close step rounds []

end Attempt

namespace Parser

/-! ## Parsers and readings -/

/-- The lexer of the parser gives the tokens of the reading. It may have come to a fault. If so it has
been reported, and nothing else. -/
structure Hears (p : Parser) (r : Reading) : Prop where
  gives : p.lexer.Gives r
  error : p.error? = none ∨ p.error? = p.lexer.fault
  reported : p.reported = p.lexer.diagnostics

/-- The parser is where the reading is, which has fewer than `n` tokens left, all in the range. -/
structure Follows (range : Span) (n : Nat) (p : Parser) (r : Reading) : Prop extends Hears p r where
  last : p.last = r.last
  widths : p.widths = r.widths
  names : p.names = r.names
  source? : p.source? = r.source?
  inside : Stream.Inside range ⟨r.tokens, r.stop⟩
  lastInside : r.last.Inside range
  few : r.tokens.length < n
  bound : r.tokens.length < p.bound

/-- The parser has failed with the error, and all that was reported is the error. -/
structure Failed (p : Parser) (e : CompileError) : Prop where
  error : p.error? = some e
  reported : p.reported = [e.diagnostic []]

/-- Nothing has happened yet where the lexer has come to no fault. -/
theorem Hears.silent {p : Parser} {r : Reading} (h : p.Hears r) (clean : p.lexer.fault = none) :
    p.error? = none ∧ p.reported = [] := by
  constructor
  · rcases h.error with none | same
    · exact none
    · rw [same, clean]
  · rw [h.reported, Lexer.diagnostics, clean]
    rfl

/-- A fault that the lexer comes to when it looks ahead is new if it was at none before. -/
theorem Hears.ask_peek {p : Parser} {r : Reading} (h : p.Hears r) :
    (Attempt.ask Lexer.peek p).2.Hears r := by
  obtain ⟨-, -, gives, fault, -⟩ := h.gives.peek
  let p₁ : Parser := (Attempt.ask Lexer.peek p).2
  have told : p₁.reported = p.reported ++
      if p.lexer.fault.isNone then p₁.lexer.diagnostics else [] := rfl
  show p₁.Hears r
  cases before : p.lexer.fault with
  | none =>
    obtain ⟨none, silent⟩ := h.silent before
    refine ⟨gives, .inl none, ?_⟩
    rw [told, silent, before]
    rfl
  | some e =>
    have same : p₁.lexer.fault = p.lexer.fault := by
      rcases h.gives.fault with none | same
      · rw [before] at none
        cases none
      · exact fault.trans same.symm
    refine ⟨gives, ?_, ?_⟩
    · rw [same]
      exact h.error
    · rw [told, before, Lexer.diagnostics, same, h.reported]
      exact List.append_nil _

/-- A look at the next token: if that is a fault, it is the error. Nothing else changes. -/
theorem Hears.peek {p : Parser} {r : Reading} (h : p.Hears r) :
    ∃ t p', Attempt.peek p = (some t, p') ∧ t.kind = r.current.kind ∧
      (r.fault? = none → t = r.current) ∧ p'.Hears r ∧ p'.error? = r.fault? ∧
        ∃ error? reported, p' = { p with lexer := p.lexer.peek.2, error?, reported } := by
  obtain ⟨kind, token, gives, fault, -⟩ := h.gives.peek
  let p₁ : Parser := (Attempt.ask Lexer.peek p).2
  have heard : p₁.Hears r := h.ask_peek
  by_cases fresh : (Attempt.ask Lexer.peek p).1.kind = .invalid ∧ p₁.error? = none
  · refine ⟨_, { p₁ with error? := p₁.lexer.fault }, if_pos fresh, kind, token, ?_, fault, _, _, rfl⟩
    exact { heard with error := .inr rfl }
  · refine ⟨_, p₁, if_neg fresh, kind, token, heard, ?_, _, _, rfl⟩
    rcases heard.error with none | same
    · cases found : r.fault? with
      | none => exact none
      | some e => exact absurd ⟨kind.trans (Reading.kind_of_fault? found), none⟩ fresh
    · exact same.trans fault

namespace Follows

variable {range : Span} {m n : Nat} {p : Parser} {r : Reading}

theorem mono (h : p.Follows range m r) (le : m ≤ n) : p.Follows range n r :=
  { h with few := Nat.lt_of_lt_of_le h.few le }

/-- The bound on the tokens left may be the least one. -/
theorem tight (h : p.Follows range n r) : p.Follows range (r.tokens.length + 1) r :=
  { h with few := Nat.lt_succ_self _ }

theorem pos (h : p.Follows range n r) : ∃ m, n = m + 1 :=
  Nat.exists_eq_succ_of_ne_zero (Nat.ne_of_gt (Nat.zero_lt_of_lt h.few))

theorem currentInside (h : p.Follows range n r) : r.current.span.Inside range := by
  show (r.tokens.headD r.stop.token).span.Inside range
  cases ht : r.tokens with
  | nil => exact h.inside.stop.span
  | cons t rest =>
    apply h.inside.tokens
    rw [ht]
    exact List.mem_cons_self

/-- Where a token is left the lexer has come to no fault. -/
theorem clean (h : p.Follows range n r) (more : r.tokens ≠ []) : p.lexer.fault = none := by
  rcases h.gives.fault with none | same
  · exact none
  · rw [same, Reading.fault?_of_tokens more]

theorem setScope (h : p.Follows range n r) (scope : Scope) :
    { p with lexer := p.lexer.setScope scope }.Follows range n { r with scope } := by
  have fault := Lexer.setScope_fault p.lexer scope
  refine { h with gives := h.gives.setScope scope, error := ?_, reported := ?_ }
  · rw [fault]
    exact h.error
  · rw [Lexer.diagnostics, fault]
    exact h.reported

end Follows

/-- The parser has looked at the next token: if that is a fault, it is the error. -/
structure Looked (range : Span) (n : Nat) (p : Parser) (r : Reading) : Prop where
  follows : p.Follows range n r
  error : p.error? = r.fault?

/-! ## Steps side by side -/

section Agreement

variable {α β : Type}

/-- Both runs have a result that is as `post` says, or both fail, with an error of the range that has
been reported once. -/
inductive Ends (range : Span) (post : α → Parser → Reading → Prop) :
    Option α × Parser → Except CompileError α × Reading → Prop
  | ok {a : α} {p : Parser} {r : Reading} : post a p r → Ends range post (some a, p) (.ok a, r)
  | error {e : CompileError} {p : Parser} {r : Reading} : p.Failed e → e.Located range →
      Ends range post (none, p) (.error e, r)

/-- The step of the parser `p` comes to what the step of the grammar comes to from `r` on. -/
def Agrees (range : Span) (post : α → Parser → Reading → Prop) (x : Attempt α) (y : Parse α)
    (p : Parser) (r : Reading) : Prop :=
  Ends range post (x p) (y r)

/-- A result as `good` says, with fewer than `n` tokens left. -/
def Leaves (range : Span) (good : α → Prop) (n : Nat) : α → Parser → Reading → Prop :=
  fun a p r => good a ∧ p.Follows range n r

/-- Fewer than `n` tokens are left. -/
abbrev Reaches (range : Span) (n : Nat) : α → Parser → Reading → Prop :=
  fun _ p r => p.Follows range n r

/-- The next token has been seen to be one, and fewer than `n` are left. -/
abbrev Stands (range : Span) (n : Nat) : α → Parser → Reading → Prop :=
  fun _ p r => r.tokens ≠ [] ∧ p.Follows range n r

/-- A token of the range, taken without coming to a fault. -/
def Took (range : Span) (n : Nat) : Token → Parser → Reading → Prop :=
  fun t p r => t.span.Inside range ∧ p.lexer.fault = none ∧ p.Follows range n r

namespace Agrees

variable {range : Span} {m n : Nat} {p : Parser} {r : Reading} {post : β → Parser → Reading → Prop}

theorem weaken {post' : β → Parser → Reading → Prop} {x : Attempt β} {y : Parse β}
    (h : Agrees range post x y p r) (le : ∀ b p' r', post b p' r' → post' b p' r') :
    Agrees range post' x y p r := by
  unfold Agrees at h ⊢
  generalize x p = left at h ⊢
  generalize y r = right at h ⊢
  cases h with
  | ok holds => exact .ok (le _ _ _ holds)
  | error failed located => exact .error failed located

theorem leaves {good : β → Prop} {x : Attempt β} {y : Parse β}
    (h : Agrees range (Leaves range good m) x y p r) (le : m ≤ n) :
    Agrees range (Leaves range good n) x y p r :=
  h.weaken fun _ _ _ ⟨holds, behind⟩ => ⟨holds, behind.mono le⟩

theorem reaches {x : Attempt β} {y : Parse β} (h : Agrees range (Reaches range m) x y p r)
    (le : m ≤ n) : Agrees range (Reaches range n) x y p r :=
  h.weaken fun _ _ _ behind => behind.mono le

theorem stands {x : Attempt β} {y : Parse β} (h : Agrees range (Stands range m) x y p r)
    (le : m ≤ n) : Agrees range (Stands range n) x y p r :=
  h.weaken fun _ _ _ ⟨there, behind⟩ => ⟨there, behind.mono le⟩

theorem bind {mid : α → Parser → Reading → Prop} {x : Attempt α} {y : Parse α}
    {f : α → Attempt β} {g : α → Parse β} (first : Agrees range mid x y p r)
    (second : ∀ a p' r', mid a p' r' → Agrees range post (f a) (g a) p' r') :
    Agrees range post (x >>= f) (y >>= g) p r := by
  show Ends range post (Attempt.andThen x f p) (Parse.andThen y g r)
  unfold Agrees at first
  unfold Attempt.andThen Parse.andThen
  generalize x p = left at first
  generalize y r = right at first
  cases first with
  | ok holds => exact second _ _ _ holds
  | error failed located => exact .error failed located

theorem succeed {b : β} (h : post b p r) :
    Agrees range post (Attempt.succeed b) (Parse.succeed b) p r := .ok h

/-- A complaint of the grammar, where the lexer has come to no fault. -/
theorem fail {cause : Cause} {span : Span} (h : p.Follows range n r) (clean : p.lexer.fault = none)
    (own : cause ≠ .parseFailed) (inside : span.Inside range) :
    Agrees range post (Attempt.fail cause span) (Parse.fail cause span) p r := by
  obtain ⟨none, silent⟩ := h.toHears.silent clean
  unfold Agrees Attempt.fail
  rw [none]
  refine .error ⟨rfl, ?_⟩ ⟨own, inside⟩
  rw [silent]
  rfl

/-- A complaint about the next token, which has been looked at: a fault goes before it. -/
theorem failHere {cause : Cause} {span : Span} {blame : Reading → Token → CompileError}
    (h : p.Looked range n r) (own : cause ≠ .parseFailed)
    (inside : r.fault? = none → span.Inside range)
    (same : r.fault? = none → blame r r.current = ⟨cause, span⟩) :
    Agrees range post (Attempt.fail cause span) (Parse.failHere blame) p r := by
  have error := h.error
  cases fault : r.fault? with
  | some e =>
    have stop := Reading.stop_of_fault? fault
    rw [fault] at error
    have lexer : p.lexer.fault = some e := by
      rcases h.follows.error with none | same
      · rw [error] at none
        cases none
      · rw [← same, error]
    have located : (Stop.fault e).Inside range := stop.2 ▸ h.follows.inside.stop
    unfold Agrees Attempt.fail Parse.failHere
    rw [error, stop.1, stop.2]
    refine .error ⟨error, ?_⟩ located
    rw [h.follows.reported, Lexer.diagnostics, lexer]
    rfl
  | none =>
    have clean : p.lexer.fault = none := by
      rcases h.follows.gives.fault with none | same
      · exact none
      · rw [same, fault]
    have plain : (Parse.failHere blame r : Except CompileError β × Reading) =
        Parse.fail cause span r := by
      unfold Parse.failHere
      split
      · next tokens stop =>
        unfold Reading.fault? at fault
        rw [tokens, stop] at fault
        cases fault
      · rw [same fault]
        rfl
    unfold Agrees
    rw [plain]
    exact fail h.follows clean own (inside fault)

/-- What a look leaves. -/
theorem peek_looked (h : p.Follows range n r) :
    ∃ t p', Attempt.peek p = (some t, p') ∧ t.kind = r.current.kind ∧
      (r.fault? = none → t = r.current) ∧ p'.Looked range n r := by
  obtain ⟨t, _, run, kind, token, heard, error, error?, reported, rfl⟩ := h.toHears.peek
  exact ⟨t, _, run, kind, token, { h with toHears := heard }, error⟩

theorem look {f : Token → Attempt β} {g : Token → Parse β} (h : p.Follows range n r)
    (next : ∀ t p', t.kind = r.current.kind → (r.fault? = none → t = r.current) →
      p'.Looked range n r → Agrees range post (f t) (g r.current) p' r) :
    Agrees range post (Attempt.peek >>= f) (Parse.peek >>= g) p r := by
  obtain ⟨t, p', run, kind, token, looked⟩ := peek_looked h
  show Ends range post (Attempt.andThen Attempt.peek f p) (g r.current r)
  simp only [Attempt.andThen, run]
  exact next t p' kind token looked

theorem unexpected {wanted : Wanted} (h : p.Follows range n r) :
    Agrees range post (Attempt.unexpected wanted) (Parse.unexpected wanted) p r := by
  obtain ⟨t, p', run, kind, token, looked⟩ := peek_looked h
  show Ends range post (Attempt.andThen Attempt.peek _ p) _
  simp only [Attempt.andThen, run]
  refine failHere looked (by simp) (fun fine => ?_) fun fine => ?_
  · rw [token fine, looked.follows.last]
    split
    · exact looked.follows.lastInside.behind
    · exact looked.follows.currentInside
  · rw [token fine, looked.follows.last]
    rfl

/-- A choice by the kind of the next token. -/
theorem ifAt {κ : Kind} {yes no : Attempt β} {yes' no' : Parse β} (h : p.Follows range n r)
    (hy : ∀ p', r.current.kind = κ → p'.Looked range n r → Agrees range post yes yes' p' r)
    (hn : ∀ p', p'.Looked range n r → Agrees range post no no' p' r) :
    Agrees range post (Attempt.isAt κ >>= fun b => if b = true then yes else no)
      (Parse.isAt κ >>= fun b => if b = true then yes' else no') p r := by
  obtain ⟨t, p', run, kind, token, looked⟩ := peek_looked h
  have left : (Attempt.isAt κ >>= fun b => if b = true then yes else no) p =
      (if (r.current.kind == κ) = true then yes else no) p' := by
    show Attempt.andThen (Attempt.andThen Attempt.peek _) _ p = _
    simp only [Attempt.andThen, run, Attempt.succeed, kind]
  show Ends range post _ ((if (r.current.kind == κ) = true then yes' else no') r)
  rw [left]
  by_cases found : (r.current.kind == κ) = true
  · rw [if_pos found, if_pos found]
    exact hy p' (eq_of_beq found) looked
  · rw [if_neg found, if_neg found]
    exact hn p' looked

/-- Taking a token that is there. -/
theorem advance (h : p.Follows range (n + 1) r) (more : r.tokens ≠ []) :
    Agrees range (Took range n) Attempt.advance Parse.advance p r := by
  obtain ⟨t, rest, ht⟩ := List.exists_cons_of_ne_nil more
  obtain ⟨token, more₁, valid, gives, fault⟩ := h.gives.next ht
  obtain ⟨none, silent⟩ := h.toHears.silent (h.clean more)
  have right : Parse.advance r = (.ok r.current, { r with tokens := rest, last := t.span }) := by
    simp only [Parse.advance, ht]
  have news : p.lexer.next.2.diagnostics = [] := by
    rw [Lexer.diagnostics, fault]
    rfl
  have left : Attempt.advance p = (some r.current,
      { p with lexer := p.lexer.next.2, last := t.span }) := by
    simp only [Attempt.advance, Attempt.ask, token, more₁, valid, news, ite_self, List.append_nil,
      or_self, if_false]
    rw [Reading.current_of_tokens ht]
    rfl
  have few := h.few
  have bound := h.bound
  have inside := h.inside.tokens
  rw [ht, List.length_cons] at few bound
  rw [ht] at inside
  obtain ⟨here, later⟩ := List.forall_mem_cons.mp inside
  unfold Agrees
  rw [left, right]
  refine .ok ⟨h.currentInside, fault, ?_⟩
  exact {
    gives := gives
    last := rfl
    widths := h.widths
    names := h.names
    source? := h.source?
    error := .inl none
    reported := silent.trans news.symm
    inside := ⟨later, h.inside.stop⟩
    lastInside := here
    few := Nat.lt_of_succ_lt_succ few
    bound := Nat.lt_of_succ_lt bound }

theorem expect {κ : Kind} {wanted : Wanted} (h : p.Follows range (n + 1) r) (more : κ ≠ .eof)
    (valid : κ ≠ .invalid) :
    Agrees range (Took range n) (Attempt.expect κ wanted) (Parse.expect κ wanted) p r := by
  have same : Parse.expect κ wanted r =
      (Parse.isAt κ >>= fun b => if b = true then Parse.advance else Parse.unexpected wanted) r := by
    show _ = (if (r.current.kind == κ) = true then Parse.advance else Parse.unexpected wanted) r
    unfold Parse.expect
    by_cases kind : r.current.kind = κ
    · rw [if_pos kind, if_pos (beq_iff_eq.mpr kind)]
    · rw [if_neg kind, if_neg fun found => kind (eq_of_beq found)]
  unfold Agrees
  rw [same]
  refine ifAt h (fun p' kind looked => ?_) fun p' looked => unexpected looked.follows
  exact advance looked.follows (Reading.tokens_ne_nil kind more valid)

theorem withScope {good : β → Prop} {scope : Scope} {x : Attempt β} {y : Parse β}
    (h : p.Follows range n r)
    (inner : ∀ p', p'.Follows range n { r with scope } →
      Agrees range (Leaves range good m) x y p' { r with scope }) :
    Agrees range (Leaves range good m) (Attempt.withScope scope x) (Parse.withScope scope y) p
      r := by
  have run := inner _ (h.setScope scope)
  unfold Agrees Attempt.withScope Parse.withScope at *
  dsimp only
  generalize x { p with lexer := p.lexer.setScope scope } = left at run ⊢
  generalize y { r with scope } = right at run ⊢
  cases run with
  | ok leaves =>
    rw [h.gives.scope]
    exact .ok ⟨leaves.1, leaves.2.setScope r.scope⟩
  | error failed located => exact .error ⟨failed.error, failed.reported⟩ located

theorem lastSpan {f : Span → Attempt β} {g : Span → Parse β} (h : p.Follows range n r)
    (next : Agrees range post (f r.last) (g r.last) p r) :
    Agrees range post (Attempt.lastSpan >>= f) (Parse.lastSpan >>= g) p r := by
  show Ends range post (f p.last p) (g r.last r)
  rw [h.last]
  exact next

theorem currentScope {f : Scope → Attempt β} {g : Scope → Parse β} (h : p.Follows range n r)
    (next : Agrees range post (f r.scope) (g r.scope) p r) :
    Agrees range post (Attempt.currentScope >>= f) (Parse.currentScope >>= g) p r := by
  show Ends range post (f p.lexer.scope p) (g r.scope r)
  rw [h.gives.scope]
  exact next

theorem isVector {name : String} {f : Bool → Attempt β} {g : Bool → Parse β}
    (h : p.Follows range n r)
    (next : Agrees range post (f (r.widths.has name)) (g (r.widths.has name)) p r) :
    Agrees range post (Attempt.isVector name >>= f) (Parse.isVector name >>= g) p r := by
  show Ends range post (f (p.widths.has name) p) (g (r.widths.has name) r)
  rw [h.widths]
  exact next

theorem sourceBetween {start stop : Nat} {f : Bytes → Attempt β} {g : Bytes → Parse β}
    (h : p.Follows range n r) (next : ∀ text, Agrees range post (f text) (g text) p r) :
    Agrees range post (Attempt.sourceBetween start stop >>= f)
      (Parse.sourceBetween start stop >>= g) p r := by
  show Ends range post (f ((p.source?.map fun s => s.slice start stop).getD []) p) _
  rw [h.source?]
  exact next _

/-- Declaring a name, where the lexer has come to no fault. -/
theorem declare {name : String} {span : Span} (h : p.Follows range n r)
    (clean : p.lexer.fault = none) (inside : span.Inside range) :
    Agrees range (Reaches range n) (Attempt.declare name span)
      (Parse.declare name span) p r := by
  unfold Agrees Attempt.declare Parse.declare
  rw [h.names]
  cases r.names.lookup name with
  | some first => exact fail h clean (by simp) inside
  | none =>
    refine .ok { h with gives := h.gives.congr rfl rfl rfl, names := ?_ }
    rfl

theorem declareWidth {name : String} {width : Width} (h : p.Follows range n r) :
    Agrees range (Reaches range n) (Attempt.declareWidth name width)
      (Parse.declareWidth name width) p r := by
  refine .ok { h with gives := h.gives.congr rfl rfl rfl, widths := ?_ }
  show p.widths.declare name width = r.widths.declare name width
  rw [h.widths]

/-! ## Loops -/

/-- A loop of enough rounds on both sides: it is enough that it agrees with more rounds than tokens
left. -/
theorem bounded {loop : Nat → Attempt β} (loop' : Nat → Parse β) (h : p.Follows range n r)
    (run : ∀ rounds, r.tokens.length < rounds →
      Agrees range post (loop rounds) (loop' (r.tokens.length + 1)) p r) :
    Agrees range post (Attempt.bounded loop) (Parse.remaining >>= fun n => loop' (n + 1)) p r :=
  run p.bound h.bound

theorem untilAt {close : Kind} {step : List α → Attempt α} {step' : List α → Parse α}
    (more : close ≠ .eof) (valid : close ≠ .invalid)
    (h : ∀ n done p r, p.Follows range (n + 1) r →
      Agrees range (Reaches range n) (step done) (step' done) p r)
    (rounds : Nat) : ∀ {rounds' n : Nat} {done : List α} {p : Parser} {r : Reading},
      n ≤ rounds → n ≤ rounds' → p.Follows range n r →
        Agrees range (Stands range n)
          (Attempt.untilAt close step rounds done) (Parse.untilAt close step' rounds' done) p r := by
  -- on the rounds of the parser; each takes a token, so those of the other loop last as well
  induction rounds with
  | zero =>
    intro rounds' n done p r enough _ follows
    have := follows.few
    omega
  | succ rounds ih =>
    intro rounds' n done p r enough enough' follows
    obtain ⟨m, rfl⟩ := follows.pos
    obtain ⟨less, rfl⟩ : ∃ less, rounds' = less + 1 := ⟨rounds' - 1, by omega⟩
    refine ifAt follows (fun p' closes looked => ?_) fun p' looked => ?_
    · exact succeed ⟨Reading.tokens_ne_nil closes more valid, looked.follows⟩
    · refine bind (h m done p' r looked.follows) fun a p' r' follows' => ?_
      exact (ih (Nat.le_of_succ_le_succ enough) (Nat.le_of_succ_le_succ enough') follows').stands
        (Nat.le_succ m)

theorem manyUntil {close : Kind} {step : List α → Attempt α} {step' : List α → Parse α}
    (follows : p.Follows range n r) (more : close ≠ .eof) (valid : close ≠ .invalid)
    (h : ∀ n done p r, p.Follows range (n + 1) r →
      Agrees range (Reaches range n) (step done) (step' done) p r) :
    Agrees range (Stands range n)
      (Attempt.manyUntil close step) (Parse.manyUntil close step') p r := by
  refine bounded (Parse.untilAt close step' · []) follows fun rounds enough => ?_
  exact (untilAt more valid h rounds enough (Nat.le_refl _) follows.tight).stands follows.few

end Agrees
end Agreement
end Parser
end CircuitCompiler
