import CircuitCompiler.Proofs.Chunks

/-!
# Text without places

The same bytes make the same tokens wherever they stand, up to the places of the tokens. So chunks
with the same text hold the same component up to places: `Component.plain` forgets these, with the
number of the file and the text of raw blocks.

* `Stream.scan_erased`: the tokens of the same bytes;
* `Chunk.plain_eq_of_text_eq`: the components of the same text.
-/

namespace CircuitCompiler

/-- A component without its places, its file and the text of its raw blocks. -/
def Component.plain (c : Component) : Component := (Relocation.erased none).component 0 c

/-- Tokens without their places. -/
def erasedTokens (ts : List Token) : List Token := ts.map (Relocation.erased none).token

namespace Relocation

/-- Without places it does not matter where the text of raw blocks came from. -/
theorem expr_erased (source? : Option Bytes) (e : Expr) :
    (erased source?).expr e = (erased none).expr e := by
  induction e with
  | ref | const => rfl
  | binary s op left right ihl ihr => rw [expr, ihl, ihr]; rfl
  | unary s op operand ih => rw [expr, ih]; rfl
  | choice s cond yes no ihc ihy ihn => rw [expr, ihc, ihy, ihn]; rfl
  | index s target bit ih => rw [expr, ih]; rfl
  | range s target high low ihh ihl => rw [expr, ihh, ihl]; rfl

theorem stmt_erased (source? : Option Bytes) (s : Stmt) :
    (erased source?).stmt s = (erased none).stmt s := by
  cases s with
  | assign s target value => rw [stmt, expr_erased source? target, expr_erased source? value]; rfl
  | _ => rfl

theorem item_erased (source? : Option Bytes) (i : Item) :
    (erased source?).item i = (erased none).item i := by
  cases i with
  | arch a => rw [item, arch, funext (stmt_erased source?)]; rfl
  | _ => rfl

theorem component_erased (source? : Option Bytes) (c : Component) :
    (erased source?).component 0 c = c.plain := by
  rw [component, funext (item_erased source?)]
  rfl

end Relocation

namespace Scan

/-! ## Tokens -/

/-- The same bytes have the same gap, up to places. -/
theorem gap_erased (file pos file' pos' : Nat) (b : Bytes) :
    (gap file' pos' b).rest = (gap file pos b).rest ∧
      (gap file' pos' b).fault.isSome = (gap file pos b).fault.isSome := by
  fun_induction gap file pos b generalizing pos' with
  | case1 pos b none =>
    rw [gap]
    split
    · exact ⟨rfl, rfl⟩
    · next found =>
      rw [none] at found
      cases found
  | case2 pos b t found span more ih =>
    rw [gap]
    split
    · next none =>
      rw [found] at none
      cases none
    · next t' found' =>
      rw [found] at found'
      cases found'
      obtain ⟨rest, fault⟩ := ih (pos' + t.text.length)
      refine ⟨rest, ?_⟩
      simp only
      split
      · exact fault
      · rfl

/-- What is read of the same bytes is the same up to places. -/
theorem read_erased (scope : Scope) (file pos file' pos' : Nat) (b : Bytes) :
    (read scope file' pos' b).rest = (read scope file pos b).rest ∧
      (read scope file' pos' b).fault.isSome = (read scope file pos b).fault.isSome ∧
      (Relocation.erased none).token (read scope file' pos' b).token.bare =
        (Relocation.erased none).token (read scope file pos b).token.bare := by
  obtain ⟨rest, fault⟩ := gap_erased file pos file' pos' b
  cases bad : (gap file pos b).fault with
  | some e =>
    rw [bad, Option.isSome_some] at fault
    obtain ⟨e', bad'⟩ := Option.isSome_iff_exists.mp fault
    rw [read_of_fault scope bad, read_of_fault scope bad']
    exact ⟨rest, rfl, rfl⟩
  | none =>
    rw [bad, Option.isSome_none, Option.isSome_eq_false_iff, Option.isNone_iff_eq_none] at fault
    cases more : (gap file pos b).rest with
    | nil =>
      rw [read_of_empty scope bad more, read_of_empty scope fault (rest.trans more)]
      exact ⟨rfl, rfl, rfl⟩
    | cons c behind =>
      rw [read_of_lexeme scope bad more, read_of_lexeme scope fault (rest.trans more)]
      refine ⟨rfl, ?_, ?_⟩
      · cases lexeme scope c behind <;> rfl
      · cases lexeme scope c behind <;> rfl

end Scan

/-- The same bytes make the same stream, up to places. -/
theorem Stream.scan_erased (file pos file' pos' : Nat) (b : Bytes) :
    erasedTokens (scan file' pos' b).tokens = erasedTokens (scan file pos b).tokens := by
  fun_induction scan file pos b generalizing pos' with
  | case1 pos b step more behind ih =>
    obtain ⟨fine, more⟩ := more
    obtain ⟨rest, fault, token⟩ := Scan.read_erased .general file pos file' pos' b
    rw [fine, Option.isSome_none, Option.isSome_eq_false_iff, Option.isNone_iff_eq_none] at fault
    have kind : (Scan.read .general file' pos' b).token.kind = step.token.kind := by
      have kind := congrArg Token.kind token
      exact kind
    rw [scan_of_token fault (by rw [kind]; exact more), rest]
    simp only [erasedTokens, List.map_cons] at ih ⊢
    rw [token, ih]
  | case2 pos b step _ e bad =>
    obtain ⟨-, fault, -⟩ := Scan.read_erased .general file pos file' pos' b
    rw [bad, Option.isSome_some] at fault
    obtain ⟨e', bad'⟩ := Option.isSome_iff_exists.mp fault
    rw [scan_of_fault bad']
  | case3 pos b step more fine =>
    obtain ⟨-, fault, token⟩ := Scan.read_erased .general file pos file' pos' b
    rw [fine, Option.isSome_none, Option.isSome_eq_false_iff, Option.isNone_iff_eq_none] at fault
    have kind : (Scan.read .general file' pos' b).token.kind = step.token.kind := by
      have kind := congrArg Token.kind token
      exact kind
    have eof : step.token.kind = .eof := by
      by_contra other
      exact more ⟨fine, other⟩
    rw [scan_of_eof fault (kind.trans eof)]

/-! ## Components -/

/-- Tokens that spell a component spell it without places, too. -/
theorem Spells.plain {file : Nat} {source? : Option Bytes} {used : List Token} {c : Component}
    (h : Spells file source? used c) : Spells 0 none (erasedTokens used) c.plain := by
  obtain ⟨r, read, tokens, -⟩ := h [] (.eof .zero) .zero
  obtain ⟨used', split, -, scope, -, -, -, moved⟩ :=
    Parse.component_moved (.erased source?) 0 rfl read
  obtain rfl : used = used' := by simpa [Reading.start, tokens] using split
  intro rest stop last
  have moved := moved rest stop last
  rw [Relocation.component_erased] at moved
  exact ⟨(Relocation.erased source?).reading r rest stop, moved, rfl, rfl, scope, rfl⟩

/-- Chunks with the same text hold the same component up to places. -/
theorem Chunk.plain_eq_of_text_eq {f f' : SourceFile} {c c' : Chunk} {keepText keepText' : Bool}
    {comp comp' : Component} (read : c.parse f keepText = .ok comp)
    (read' : c'.parse f' keepText' = .ok comp') (text : c.text f = c'.text f') :
    comp.plain = comp'.plain := by
  obtain ⟨used, span, scanned, spells⟩ := (parse_eq_ok_iff f keepText c comp).mp read
  obtain ⟨used', span', scanned', spells'⟩ := (parse_eq_ok_iff f' keepText' c' comp').mp read'
  have same : erasedTokens used = erasedTokens used' := by
    have erased := Stream.scan_erased f'.id (Cursor.ofRange f' c'.start c'.stop).off f.id
      (Cursor.ofRange f c.start c.stop).off (c.text f)
    rw [scanned, text, scanned'] at erased
    exact erased
  obtain ⟨r, first, -⟩ := spells.plain [] (.eof .zero) .zero
  obtain ⟨r', second, -⟩ := spells'.plain [] (.eof .zero) .zero
  rw [same, second] at first
  exact (Except.ok.inj (congrArg Prod.fst first)).symm

end CircuitCompiler
