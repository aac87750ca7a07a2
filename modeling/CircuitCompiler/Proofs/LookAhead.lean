import CircuitCompiler.Proofs.Scan
import CircuitCompiler.Token.Lexer

/-!
# Look-ahead and scopes

The lexer reads ahead under one scope and may hand the token out under another, and it puts a token
back when the scope changes its kind. None of this shows: the answers to any sequence of calls are
those of a plain sequence of tokens, read in the general scope, of which a position is kept. The
scope only says which kind the token at the position is shown with.

* `Scan.read_inScope`: the scope decides the kind of a token and nothing else;
* `Lexer.Shows`: what a lexer is at a position, with and without a token in its buffer;
* `Lexer.call_shows`: one call keeps to it;
* `Lexer.answers_ofFile`: the answers to a sequence of calls.
-/

namespace CircuitCompiler

/-! ## Scopes and single tokens -/

namespace Scan

/-- A lexeme as a scope reads it. -/
def Lexeme.inScope (scope : Scope) : Lexeme → Lexeme
  | token kind text value => token (kind.inScope scope) text value
  | broken text cause faultAt => broken text cause faultAt

@[simp] theorem Lexeme.text_inScope (scope : Scope) (x : Lexeme) :
    (x.inScope scope).text = x.text := by
  cases x <;> rfl

theorem symbol2_inScope (scope : Scope) (b0 b1 : UInt8) :
    (symbol2 scope b0 b1).map Kind.symbol =
      (symbol2 .general b0 b1).map fun s => (Kind.symbol s).inScope scope := by
  unfold symbol2
  split <;> rfl

theorem symbol1_inScope (scope : Scope) (b : UInt8) :
    (symbol1 scope b).map Kind.symbol =
      (symbol1 .general b).map fun s => (Kind.symbol s).inScope scope := by
  unfold symbol1
  split <;> rfl

theorem punctuation_inScope (scope : Scope) (b : UInt8) (rest : Bytes) :
    punctuation scope b rest = (punctuation .general b rest).inScope scope := by
  have one := symbol1_inScope scope b
  cases rest with
  | nil =>
    simp only [punctuation, leadingPair]
    cases hs : symbol1 scope b <;> cases hg : symbol1 .general b <;> simp [hs, hg] at one
    · rfl
    · simp [Lexeme.inScope, one]
  | cons c rest =>
    have two := symbol2_inScope scope b c
    simp only [punctuation, leadingPair]
    cases hs : symbol2 scope b c <;> cases hg : symbol2 .general b c <;> simp [hs, hg] at two
    · cases hs1 : symbol1 scope b <;> cases hg1 : symbol1 .general b <;> simp [hs1, hg1] at one
      · rfl
      · simp [Lexeme.inScope, one]
    · simp [Lexeme.inScope, two]

theorem lexeme_inScope (scope : Scope) (b : UInt8) (rest : Bytes) :
    lexeme scope b rest = (lexeme .general b rest).inScope scope := by
  have vectors : ∀ form isDigit opening rest,
      vector form isDigit opening rest = (vector form isDigit opening rest).inScope scope := by
    intro form isDigit opening rest
    simp only [vector]
    split
    · rfl
    · split
      · rfl
      · split <;> rfl
  unfold lexeme
  by_cases hex : (b == 120 && rest.head? == some 34) = true
  · rw [if_pos hex, if_pos hex]
    exact vectors ..
  rw [if_neg hex, if_neg hex]
  by_cases letter : isLetter b = true
  · rw [if_pos letter, if_pos letter]
    simp only [word]
    split <;> rfl
  rw [if_neg letter, if_neg letter]
  by_cases digit : isDecimal b = true
  · rw [if_pos digit, if_pos digit]
    simp only [number]
    split <;> rfl
  rw [if_neg digit, if_neg digit]
  by_cases quote : (b == 34) = true
  · rw [if_pos quote, if_pos quote]
    exact vectors ..
  · rw [if_neg quote, if_neg quote]
    exact punctuation_inScope scope b rest

/-- A scope decides the kind of the token that is read and nothing else. -/
theorem read_inScope (scope : Scope) (file pos : Nat) (b : Bytes) :
    read scope file pos b =
      { read .general file pos b with
        token := (read .general file pos b).token.inScope scope } := by
  cases fine : (gap file pos b).fault with
  | some e =>
    rw [read_of_fault scope fine, read_of_fault .general fine]
    rfl
  | none =>
    cases more : (gap file pos b).rest with
    | nil =>
      rw [read_of_empty scope fine more, read_of_empty .general fine more]
      rfl
    | cons c rest =>
      rw [read_of_lexeme scope fine more, read_of_lexeme .general fine more,
        lexeme_inScope scope c rest, Lexeme.text_inScope]
      cases lexeme .general c rest <;> rfl

end Scan

namespace Lexer

/-! ## Calls -/

/-- What can be asked of a lexer. -/
inductive Call where
  | next
  | peek
  | setScope (scope : Scope)
  deriving DecidableEq, Repr

/-- The token that a call answers with, if it does, and the lexer behind it. -/
def call (lx : Lexer) : Call → Option Token × Lexer
  | .next => (some lx.next.1, lx.next.2)
  | .peek => (some lx.peek.1, lx.peek.2)
  | .setScope scope => (none, lx.setScope scope)

/-- The answers to calls, one for each. -/
def answers : Lexer → List Call → List (Option Token)
  | _, [] => []
  | lx, c :: rest => (lx.call c).1 :: answers (lx.call c).2 rest

/-- The token that comes `k` tokens further on, where tokens are only taken. -/
def nth (lx : Lexer) : Nat → Token
  | 0 => lx.next.1
  | k + 1 => lx.next.2.nth k

/-- The answers of a sequence of tokens, asked from position `k` on under a scope: taking a token
moves the position on, a look leaves it, and both show the token as the scope reads it. -/
def expected (tokens : Nat → Token) : Nat → Scope → List Call → List (Option Token)
  | _, _, [] => []
  | k, scope, .next :: rest =>
    some ((tokens k).inScope scope) :: expected tokens (k + 1) scope rest
  | k, scope, .peek :: rest => some ((tokens k).inScope scope) :: expected tokens k scope rest
  | k, _, .setScope scope :: rest => none :: expected tokens k scope rest

/-! ## Lexers at a position -/

/-- Nothing is buffered and the scope is general. -/
structure Plain (lx : Lexer) : Prop where
  look : lx.look = none
  scope : lx.scope = .general

/-- A lexer with another scope and the same buffer. -/
def under (lx : Lexer) (scope : Scope) : Lexer := { lx with scope }

/-- The lexer that has looked at the next token. -/
def holding (lx : Lexer) : Lexer :=
  { lx.readToken.2 with look := some ⟨lx.readToken.1, lx.cursor.off⟩ }

/-- A lexer at the position of a plain one, under a scope: it has read nothing beyond, or it holds
the next token as the scope reads it. -/
inductive Shows (base : Lexer) (scope : Scope) : Lexer → Prop
  | level : Shows base scope (base.under scope)
  | ahead : Shows base scope (base.under scope).holding

variable {base lx : Lexer} {scope : Scope}

theorem next_of_empty (empty : lx.look = none) : lx.next = lx.readToken := by
  unfold next
  rw [empty]

theorem peek_of_empty (empty : lx.look = none) : lx.peek = (lx.readToken.1, lx.holding) := by
  unfold peek
  rw [empty]
  rfl

theorem readToken_look (lx : Lexer) : lx.readToken.2.look = lx.look := by
  unfold readToken
  split <;> rfl

theorem readToken_scope (lx : Lexer) : lx.readToken.2.scope = lx.scope := by
  unfold readToken
  split <;> rfl

theorem Plain.readToken (plain : base.Plain) : base.readToken.2.Plain :=
  ⟨(readToken_look base).trans plain.look, (readToken_scope base).trans plain.scope⟩

/-- Under another scope a plain lexer reads the same token, with the kind of that scope, and ends up
at the same place. -/
theorem readToken_under (plain : base.Plain) (scope : Scope) :
    (base.under scope).readToken =
      (base.readToken.1.inScope scope, base.readToken.2.under scope) := by
  unfold Lexer.readToken under
  cases base.fault with
  | some e => rfl
  | none =>
    simp only [plain.scope]
    rw [Scan.read_inScope scope]
    cases base.keepTrivia <;> rfl

/-- Putting the token that was read last back where it started leads back, unless it was a fault. -/
theorem readToken_undo (movable : base.readToken.1.kind.isScoped = true) :
    { base.readToken.2 with cursor := base.readToken.2.cursor.reset base.cursor.off } = base := by
  unfold readToken at movable ⊢
  cases fault : base.fault with
  | some e =>
    simp only [fault] at movable
    cases movable
  | none =>
    simp only [fault] at movable ⊢
    cases broken :
      (Scan.read base.scope base.cursor.file.id base.cursor.off base.cursor.rest).fault with
    | some e =>
      have kind := Scan.read_fault_kind broken
      cases keep : base.keepTrivia <;> simp [keep, Token.bare, kind, Kind.isScoped] at movable
    | none =>
      rw [← fault]
      rfl

/-- A change of scope under a buffered token: the token is put back if its kind changes, and stays
as it is otherwise. -/
theorem setScope_ahead (plain : base.Plain) (scope scope' : Scope) :
    base.Shows scope' ((base.under scope).holding.setScope scope') := by
  have read := readToken_under plain scope
  have movable : (base.readToken.1.inScope scope).kind.isScoped =
      base.readToken.1.kind.isScoped := by
    simp only [Token.inScope]
    cases base.readToken.1.kind with
    | symbol x => cases x <;> cases scope <;> rfl
    | _ => rfl
  by_cases back : scope ≠ scope' ∧ base.readToken.1.kind.isScoped = true
  · have put : (base.under scope).holding.setScope scope' = base.under scope' := by
      have undo := congrArg (·.under scope') (readToken_undo back.2)
      simp only [setScope, holding, read, movable]
      rw [if_pos (by exact back)]
      have none : base.readToken.2.look = none := plain.readToken.look
      simpa only [under, none] using undo
    rw [put]
    exact .level
  · have stay : (base.under scope).holding.setScope scope' = (base.under scope').holding := by
      -- the token reads the same under both scopes
      have same : base.readToken.1.inScope scope = base.readToken.1.inScope scope' := by
        by_cases eq : scope = scope'
        · rw [eq]
        · have unmoved : base.readToken.1.kind.isScoped = false := by
            simpa [eq] using back
          simp only [Token.inScope]
          cases hk : base.readToken.1.kind with
          | symbol x => cases x <;> simp_all [Kind.isScoped, Kind.inScope]
          | _ => rfl
      simp only [setScope, holding, read, readToken_under plain scope', movable]
      rw [if_neg (by exact back), same]
      rfl
    rw [stay]
    exact .ahead

/-! ## Calls and runs -/

theorem next_shows (plain : base.Plain) (h : base.Shows scope lx) :
    lx.next.1 = base.next.1.inScope scope ∧ base.next.2.Shows scope lx.next.2 := by
  have read := readToken_under plain scope
  rw [next_of_empty plain.look]
  cases h with
  | level =>
    have empty : (base.under scope).look = none := plain.look
    rw [next_of_empty empty, read]
    exact ⟨rfl, .level⟩
  | ahead =>
    have taken : (base.under scope).holding.next =
        (base.readToken.1.inScope scope, base.readToken.2.under scope) := by
      have none : base.readToken.2.look = none := plain.readToken.look
      simp only [next, holding, read]
      simp only [under, none]
    rw [taken]
    exact ⟨rfl, .level⟩

theorem peek_shows (plain : base.Plain) (h : base.Shows scope lx) :
    lx.peek.1 = base.next.1.inScope scope ∧ base.Shows scope lx.peek.2 := by
  have read := readToken_under plain scope
  rw [next_of_empty plain.look]
  cases h with
  | level =>
    have empty : (base.under scope).look = none := plain.look
    rw [peek_of_empty empty, read]
    exact ⟨rfl, .ahead⟩
  | ahead =>
    refine ⟨?_, .ahead⟩
    show (base.under scope).readToken.1 = _
    rw [read]

theorem setScope_shows (plain : base.Plain) (h : base.Shows scope lx) (scope' : Scope) :
    base.Shows scope' (lx.setScope scope') := by
  cases h with
  | level =>
    have moved : (base.under scope).setScope scope' = base.under scope' := by
      simp only [setScope, under, plain.look]
    rw [moved]
    exact .level
  | ahead => exact setScope_ahead plain scope scope'

/-- The answers to calls are those of the tokens that the plain lexer takes. -/
theorem answers_shows (calls : List Call) : ∀ {base lx : Lexer} {scope : Scope} {k : Nat}
    {tokens : Nat → Token}, base.Plain → base.Shows scope lx → (∀ i, tokens (k + i) = base.nth i) →
      lx.answers calls = expected tokens k scope calls := by
  induction calls with
  | nil =>
    intro base lx scope k tokens _ _ _
    rfl
  | cons c rest ih =>
    intro base lx scope k tokens plain shows_ sequence
    have here : tokens k = base.next.1 := sequence 0
    cases c with
    | next =>
      obtain ⟨answer, behind⟩ := next_shows plain shows_
      have plain' : base.next.2.Plain := by
        rw [next_of_empty plain.look]
        exact plain.readToken
      have later : ∀ i, tokens (k + 1 + i) = base.next.2.nth i := by
        intro i
        rw [Nat.add_assoc, Nat.add_comm 1 i]
        exact sequence (i + 1)
      simp only [answers, call, expected, answer, here]
      rw [ih plain' behind later]
    | peek =>
      obtain ⟨answer, behind⟩ := peek_shows plain shows_
      simp only [answers, call, expected, answer, here]
      rw [ih plain behind sequence]
    | setScope scope' =>
      simp only [answers, call, expected]
      rw [ih plain (setScope_shows plain shows_ scope') sequence]

/-- A lexer over a file answers every sequence of calls as the tokens do that it gives where they
are only taken: looks and changes of scope lose no token, repeat none and change nothing of it but
the kind, which is the one of the scope in force. -/
theorem answers_ofFile (f : SourceFile) (keepTrivia : Bool) (calls : List Call) :
    (ofFile f keepTrivia).answers calls =
      expected (ofFile f keepTrivia).nth 0 .general calls := by
  have plain : (ofFile f keepTrivia).Plain := ⟨rfl, rfl⟩
  have start : (ofFile f keepTrivia).Shows .general (ofFile f keepTrivia) := .level
  refine answers_shows calls plain start ?_
  intro i
  rw [Nat.zero_add]

end Lexer
end CircuitCompiler
