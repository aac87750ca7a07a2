import CircuitCompiler.Source.Cursor
import CircuitCompiler.Token.Scan

/-!
# Token streams

The tokens of a byte string up to its end or its first fault, all read in the general scope. What a
scope makes of them is `Token.inScope`.
-/

namespace CircuitCompiler

/-- Why a stream has no further token. -/
inductive Stop where
  /-- The source ends at an offset. -/
  | eof (span : Span)
  /-- A lexical fault. -/
  | fault (error : CompileError)
  deriving DecidableEq, Repr

/-- The token that stands for the end of a stream. -/
def Stop.token : Stop → Token
  | .eof span => .eof span
  | .fault e => .invalid e.span

/-- Tokens in source order and what ends them. -/
structure Stream where
  tokens : List Token
  stop : Stop
  deriving DecidableEq, Repr

namespace Scan

/-- A lexeme takes at least one byte. -/
theorem lexeme_text_pos (scope : Scope) (b : UInt8) (rest : Bytes) :
    0 < (lexeme scope b rest).text.length := by
  unfold lexeme
  split
  · simp only [vector]
    repeat' split
    all_goals simp [Lexeme.text]
  split
  · simp only [word]
    split <;> simp [Lexeme.text]
  split
  · rename_i digit
    have starts : (radix (b :: rest)).2.2 = [] → (radix (b :: rest)).2.1 = isDecimal := by
      unfold radix
      split <;> simp
    have shape : ∀ text, text = (number (b :: rest)).text → 0 < text.length := by
      rintro _ rfl
      unfold number
      rcases hr : radix (b :: rest) with ⟨form, isDigit, mark⟩
      simp only [hr] at starts ⊢
      cases mark with
      | nil =>
        obtain rfl := starts rfl
        simp only [List.length_nil, List.drop_zero, List.takeWhile_cons, digit, if_true]
        split <;> simp [Lexeme.text]
      | cons m ms => split <;> simp [Lexeme.text]
    exact shape _ rfl
  split
  · simp only [vector]
    repeat' split
    all_goals simp [Lexeme.text]
  · simp only [punctuation]
    repeat' split
    all_goals simp [Lexeme.text]

theorem gap_rest_le (file pos : Nat) (b : Bytes) : (gap file pos b).rest.length ≤ b.length := by
  fun_induction gap file pos b with
  | case1 => simp
  | case2 pos b t h span more ih =>
    exact Nat.le_trans ih (Nat.le_of_lt (trivium_shortens h))

/-- A token that is neither the end nor a fault leaves fewer bytes. -/
theorem read_shortens {scope : Scope} {file pos : Nat} {b : Bytes}
    (fine : (read scope file pos b).fault = none)
    (more : (read scope file pos b).token.kind ≠ .eof) :
    (read scope file pos b).rest.length < b.length := by
  have bound := gap_rest_le file pos b
  revert fine more
  simp only [read]
  split
  · simp
  · split
    · simp [Token.eof]
    · rename_i c rest hrest
      rw [hrest] at bound
      have pos := lexeme_text_pos scope c rest
      split <;> intros <;> simp_all only [List.length_drop, List.length_cons] <;> omega

end Scan

namespace Stream

/-- The stream of `b`, which starts at offset `pos`. -/
def scan (file pos : Nat) (b : Bytes) : Stream :=
  let step := Scan.read .general file pos b
  if _more : step.fault = none ∧ step.token.kind ≠ .eof then
    let behind := scan file step.pos step.rest
    ⟨step.token.bare :: behind.tokens, behind.stop⟩
  else
    match step.fault with
    | some e => ⟨[], .fault e⟩
    | none => ⟨[], .eof step.token.span⟩
termination_by b.length
decreasing_by exact Scan.read_shortens _more.1 _more.2

/-- The stream of what a cursor has still to read. -/
def ofCursor (c : Cursor) : Stream := scan c.file.id c.off c.rest

/-- The next token of a stream. -/
def head (s : Stream) : Token := s.tokens.headD s.stop.token

end Stream
end CircuitCompiler
