import CircuitCompiler.Proofs.Erasure
import CircuitCompiler.Proofs.LookAhead
import CircuitCompiler.Proofs.Spaced

/-!
# The shape of a source

Of the tokens that a lexer hands out, the grammar needs kinds and texts only. The value of a token
follows from the two, and what is wrong with a broken token follows from its text. So the shape of a
source, which is the sequence of kinds and texts, decides its stream up to places.

* `Scan.lexeme_fault`: the cause of a fault, read off the text of the broken token;
* `Lexer.drainUpTo_shapes`: what a lexer hands out is its stream, with the end as one more token;
* `Stream.erasedTokens_eq`, `SourceFile.shapes_eq`: what the shape of a source tells of its stream.
-/

namespace CircuitCompiler

/-- The kind and the text of a token. -/
def Token.shape (t : Token) : Kind × Bytes := (t.kind, t.text)

/-- The kinds and texts of the tokens that a lexer hands out, up to and including the end of the
source or the first fault. White space and comments are no part of it. -/
def SourceFile.shapes (f : SourceFile) : List (Kind × Bytes) :=
  (Lexer.ofFile f false).drain.1.map Token.shape

/-! ## Values -/

theorem Bytes.latin_injective {a b : Bytes} (h : a.latin = b.latin) : a = b := by
  have number : ∀ x : UInt8, (Char.ofNat x.toNat).toNat = x.toNat :=
    forall_byte (by decide +kernel)
  have chars : a.map (fun x => Char.ofNat x.toNat) = b.map fun x => Char.ofNat x.toNat := by
    rw [← Bytes.toList_latin, ← Bytes.toList_latin, h]
  refine List.map_injective_iff.mpr (fun x y same => ?_) chars
  rw [← UInt8.toNat_inj, ← number x, ← number y]
  exact congrArg Char.toNat same

/-- Tokens of the same kind and text differ in their places only. -/
theorem Token.erased_eq {t u : Token} (shape : t.shape = u.shape) (spelled : t.Spelled)
    (spelled' : u.Spelled) (bare : t.leading = []) (bare' : u.leading = []) :
    (Relocation.erased none).token t = (Relocation.erased none).token u := by
  obtain ⟨kind, span, text, value, leading⟩ := t
  obtain ⟨kind', span', text', value', leading'⟩ := u
  cases shape
  cases bare
  cases bare'
  obtain rfl : value = value' := Bytes.latin_injective (Stream.writes_unique spelled spelled').2
  rfl

namespace Stream

theorem scan_bare {file pos : Nat} {b : Bytes} : ∀ t ∈ (scan file pos b).tokens, t.leading = [] := by
  fun_induction scan file pos b with
  | case1 pos b step more behind ih => exact List.forall_mem_cons.mpr ⟨rfl, ih⟩
  | case2 | case3 => exact fun _ none => absurd none List.not_mem_nil

/-- A token as the scanner makes it, without what stands before it. -/
structure Scanned (t : Token) : Prop where
  spelled : t.Spelled
  bare : t.leading = []

theorem scan_scanned {file pos : Nat} {b : Bytes} : ∀ t ∈ (scan file pos b).tokens, Scanned t :=
  fun t ht => ⟨scan_spelled t ht, scan_bare t ht⟩

/-- Scanned tokens of the same kinds and texts are the same up to places. -/
theorem erasedTokens_eq {ts us : List Token} (scanned : ∀ t ∈ ts, Scanned t)
    (scanned' : ∀ u ∈ us, Scanned u) (shapes : ts.map Token.shape = us.map Token.shape) :
    erasedTokens ts = erasedTokens us := by
  induction ts generalizing us with
  | nil =>
    rw [List.map_nil] at shapes
    rw [List.map_eq_nil_iff.mp shapes.symm]
  | cons t ts ih =>
    obtain ⟨u, us, rfl, shape, rest⟩ := List.map_eq_cons_iff.mp shapes.symm
    obtain ⟨here, later⟩ := List.forall_mem_cons.mp scanned
    obtain ⟨here', later'⟩ := List.forall_mem_cons.mp scanned'
    simp only [erasedTokens, List.map_cons] at ih ⊢
    rw [ih later later' rest.symm,
      Token.erased_eq shape.symm here.spelled here'.spelled here.bare here'.bare]

end Stream

/-! ## Faults -/

namespace Scan

/-- What is wrong with a broken token, read off its text. A comment without an end has no token of
its own, so its text is empty. -/
def faultOf : Bytes → Cause
  | [] => .unterminatedComment
  | b :: rest =>
    if isDecimal b then .malformedInteger (b :: rest)
    else if b == 34 then (if rest.all isBinary then .unterminatedVector else .badVectorDigit)
    else if b == 120 then
      (if (rest.drop 1).all isHexadecimal then .unterminatedVector else .badVectorDigit)
    else .unknownCharacter (b :: rest)

/-- A broken vector either has digits only, or ends in what is no digit. -/
theorem vector_fault {form : LiteralForm} {isDigit : UInt8 → Bool} {opening rest text : Bytes}
    {cause : Cause} {faultAt : Nat}
    (h : vector form isDigit opening rest = .broken text cause faultAt) :
    ∃ body, text = opening ++ body ∧
      cause = if body.all isDigit then .unterminatedVector else .badVectorDigit := by
  have digits : (rest.takeWhile isDigit).all isDigit = true := List.all_takeWhile
  simp only [vector] at h
  split at h
  · cases h
    exact ⟨_, rfl, by rw [if_pos digits]⟩
  · next c more behind =>
    split at h
    · cases h
    split at h
    · cases h
      exact ⟨_, rfl, by rw [if_pos digits]⟩
    · cases h
      refine ⟨rest.takeWhile isDigit ++ [c], List.append_assoc .., ?_⟩
      -- the byte that ends the digits is none
      have ends : isDigit c = false := by
        have first := List.head?_dropWhile_not isDigit rest
        rwa [← drop_of_split List.takeWhile_append_dropWhile, behind] at first
      have other : (rest.takeWhile isDigit ++ [c]).all isDigit ≠ true := by
        simp only [List.all_append, List.all_cons, ends, Bool.false_and, Bool.and_false, ne_eq,
          Bool.false_eq_true, not_false_eq_true]
      rw [if_neg other]

/-- A fault in a gap is a comment without an end. -/
theorem gap_fault_cause {file pos : Nat} {b : Bytes} {e : CompileError}
    (h : (gap file pos b).fault = some e) : e.cause = .unterminatedComment := by
  fun_induction gap file pos b with
  | case1 => cases h
  | case2 pos b t found span more ih =>
    simp only at h
    split at h
    · exact ih h
    · cases h
      rfl

/-- The cause of a broken lexeme is read off its text. -/
theorem lexeme_fault {scope : Scope} {b : UInt8} {rest text : Bytes} {cause : Cause}
    {faultAt : Nat} (h : lexeme scope b rest = .broken text cause faultAt) :
    cause = faultOf text := by
  obtain ⟨more, starts⟩ : ∃ more, text = b :: more := by
    have front := lexeme_prefix scope b rest
    have size := lexeme_text_pos scope b rest
    rw [h] at front size
    obtain ⟨c, more, rfl⟩ := List.exists_cons_of_length_pos size
    obtain rfl : c = b := (List.cons_prefix_cons.mp front).1
    exact ⟨more, rfl⟩
  unfold lexeme at h
  by_cases hex : (b == 120 && rest.head? == some 34) = true
  · rw [if_pos hex] at h
    obtain rfl : b = 120 := by simpa using (Bool.and_eq_true_iff.mp hex).1
    obtain ⟨body, rfl, rfl⟩ := vector_fault h
    rfl
  rw [if_neg hex] at h
  by_cases letter : isLetter b = true
  · rw [if_pos letter] at h
    simp only [word] at h
    split at h <;> cases h
  rw [if_neg letter] at h
  by_cases digit : isDecimal b = true
  · rw [if_pos digit] at h
    simp only [number] at h
    split at h
    · injection h with same found
      rw [← found, same, starts, faultOf, if_pos digit]
    · cases h
  rw [if_neg digit] at h
  by_cases quote : (b == 34) = true
  · rw [if_pos quote] at h
    obtain rfl := eq_of_beq quote
    obtain ⟨body, rfl, rfl⟩ := vector_fault h
    rfl
  rw [if_neg quote] at h
  have other : ¬(b == 120) = true := by
    intro x
    obtain rfl := eq_of_beq x
    exact letter (by decide)
  have unknown : cause = .unknownCharacter text := by
    simp only [punctuation] at h
    split at h
    · cases h
    split at h
    · cases h
    · injection h with same found
      rw [← found, same]
  rw [unknown, starts, faultOf, if_neg digit, if_neg quote, if_neg other]

/-- The cause of a fault is read off the text of the token that comes with it. -/
theorem read_fault_cause {scope : Scope} {file pos : Nat} {b : Bytes} {e : CompileError}
    (h : (read scope file pos b).fault = some e) :
    e.cause = faultOf (read scope file pos b).token.text := by
  cases fault_cases h with
  | gap found step =>
    rw [step]
    exact gap_fault_cause found
  | lexeme c rest text cause faultAt found place step =>
    rw [step, place]
    exact lexeme_fault found

end Scan

/-! ## What a lexer hands out -/

/-- The kind and the text of the token that a lexer hands out at the end of a stream. -/
def Stop.EndsIn : Stop → Kind × Bytes → Prop
  | .eof _, last => last.1 = .eof
  | .fault e, last => last.1 = .invalid ∧ e.cause = Scan.faultOf last.2

namespace Lexer

theorem next_of_fine {lx : Lexer} (plain : lx.Plain) (fine : lx.fault = none)
    (bare : lx.keepTrivia = false) :
    lx.next =
      let step := Scan.read .general lx.cursor.file.id lx.cursor.off lx.cursor.rest
      (step.token.bare, { lx with cursor := lx.cursor.reset step.pos, fault := step.fault }) := by
  rw [next_of_empty plain.look, readToken, fine, plain.scope, bare]
  rfl

theorem drainUpTo_succ (lx : Lexer) (fuel : Nat) :
    (lx.drainUpTo (fuel + 1)).1 =
      if lx.next.1.kind = .eof ∨ lx.next.1.kind = .invalid then [lx.next.1]
      else lx.next.1 :: (lx.next.2.drainUpTo fuel).1 := by
  rw [drainUpTo]
  dsimp only
  split <;> rfl

/-- Behind a token the cursor has what the scanner leaves. -/
theorem rest_reset (c : Cursor) (scope : Scope) (file : Nat) :
    (c.reset (Scan.read scope file c.off c.rest).pos).rest =
      (Scan.read scope file c.off c.rest).rest := by
  obtain ⟨taken, split, pos⟩ := Scan.read_split scope file c.off c.rest
  have behind := Scan.drop_of_split split.symm
  rw [pos]
  rwa [Cursor.rest, Bytes.slice, List.drop_drop] at behind

/-- A lexer hands out the tokens of what its cursor has still to read, and one that tells how they
end. -/
theorem drainUpTo_shapes (lx : Lexer) (plain : lx.Plain) (fine : lx.fault = none)
    (bare : lx.keepTrivia = false) {fuel : Nat} (enough : lx.cursor.rest.length < fuel) :
    ∃ last, (lx.drainUpTo fuel).1 = (Stream.ofCursor lx.cursor).tokens ++ [last] ∧
      (Stream.ofCursor lx.cursor).stop.EndsIn last.shape := by
  -- each token takes a byte at least, so the fuel lasts for the bytes
  induction fuel generalizing lx with
  | zero => omega
  | succ fuel ih =>
    let step := Scan.read .general lx.cursor.file.id lx.cursor.off lx.cursor.rest
    let behind : Lexer :=
      { lx with cursor := lx.cursor.reset step.pos, fault := step.fault }
    have next : lx.next = (step.token.bare, behind) := next_of_fine plain fine bare
    rw [drainUpTo_succ, next, Stream.ofCursor]
    cases broken : step.fault with
    | some e =>
      have kind : step.token.bare.kind = .invalid := Scan.read_fault_kind broken
      rw [if_pos (Or.inr kind), Stream.scan_of_fault broken]
      exact ⟨step.token.bare, rfl, kind, Scan.read_fault_cause broken⟩
    | none =>
      by_cases ended : step.token.bare.kind = .eof
      · rw [if_pos (Or.inl ended), Stream.scan_of_eof broken ended]
        exact ⟨step.token.bare, rfl, ended⟩
      · have valid : step.token.bare.kind ≠ .invalid := (Scan.read_token broken ended).2.1
        have rest : behind.cursor.rest = step.rest := rest_reset lx.cursor .general _
        have shorter : step.rest.length < lx.cursor.rest.length := Scan.read_shortens broken ended
        obtain ⟨last, handed, ends⟩ := ih behind ⟨plain.look, plain.scope⟩ broken bare
          (by rw [rest]; omega)
        rw [Stream.ofCursor, rest] at handed ends
        rw [if_neg (not_or.mpr ⟨ended, valid⟩), Stream.scan_of_token broken ended]
        refine ⟨last, ?_, ends⟩
        rw [handed]
        rfl

end Lexer

/-- The shape of a source is that of its stream, with the end as one more token. -/
theorem SourceFile.shapes_eq (f : SourceFile) :
    ∃ last, f.shapes = (Stream.scan f.id 0 f.content).tokens.map Token.shape ++ [last] ∧
      (Stream.scan f.id 0 f.content).stop.EndsIn last := by
  have enough : (Cursor.ofFile f).rest.length < f.content.length + 2 := by
    simp only [Cursor.ofFile, Cursor.rest, Bytes.slice, List.take_length, List.drop_zero]
    omega
  obtain ⟨last, handed, ends⟩ := Lexer.drainUpTo_shapes (.ofFile f false) ⟨rfl, rfl⟩ rfl rfl enough
  have cursor : (Lexer.ofFile f false).cursor = .ofFile f := rfl
  rw [cursor, Stream.ofCursor_ofFile] at handed ends
  refine ⟨last.shape, ?_, ends⟩
  rw [← List.map_singleton, ← List.map_append, ← handed]
  rfl

end CircuitCompiler
