import CircuitCompiler.Proofs.Draining
import CircuitCompiler.Proofs.Grammar

/-!
# Tokens that are written again

The texts of the tokens of a source, with one space between any two, are a source with the same
tokens, whatever stood between them before: a space keeps apart what would be read as one token or
as the start of a comment, and it changes no token. The text of a literal is how its constant is
written.

* `Token.lexeme_eq`: the text of a token decides its kind and its value;
* `ofString_spaced`: spaced bytes against spaced text;
* `Lexer.drain_respaced`: lexing the spaced tokens of a source.
-/

namespace CircuitCompiler

/-- A token without its place and what stands before it: its kind, its text and its value. -/
def Token.lexeme (t : Token) : Kind × Bytes × Bytes := (t.kind, t.text, t.value)

/-- The texts of tokens with one space between any two. -/
def spaced (ts : List Token) : Bytes := List.intercalate [32] (ts.map (·.text))

/-- The file with the texts of tokens in place of what it has. -/
def SourceFile.respaced (f : SourceFile) (ts : List Token) : SourceFile :=
  { f with content := spaced ts }

/-! ## Spaced text -/

/-- The text of a token is ASCII, so it is the bytes of its characters. -/
theorem Token.Spelled.ofString {t : Token} (h : t.Spelled) :
    Bytes.ofString t.text.latin = t.text := by
  obtain ⟨ascii, -, -⟩ := Scan.lexes_of_writes h
  exact Bytes.latin_injective (Bytes.latin_ofString ascii)

theorem ofString_spaced {ts : List Token} (spelled : ∀ t ∈ ts, t.Spelled) :
    Bytes.ofString (String.intercalate " " (ts.map (·.text.latin))) = spaced ts := by
  induction ts with
  | nil =>
    rw [Bytes.ofString_eq]
    rfl
  | cons t ts ih =>
    obtain ⟨here, later⟩ := List.forall_mem_cons.mp spelled
    cases ts with
    | nil =>
      rw [List.map_singleton, String.intercalate_singleton, here.ofString, spaced]
      simp
    | cons u ts =>
      have space : Bytes.ofString " " = [32] := by
        rw [Bytes.ofString_eq]
        rfl
      have rest := ih later
      rw [List.map_cons] at rest
      rw [List.map_cons, List.map_cons, String.intercalate_cons_cons, Bytes.ofString_append,
        Bytes.ofString_append, space, here.ofString, rest]
      simp [spaced]

/-! ## Tokens with the same text -/

/-- The text of a token decides its kind in a scope and its value. -/
theorem Token.lexeme_eq {t u : Token} (scope : Scope) (spelled : t.Spelled)
    (canonical : u.Canonical) (text : u.text.latin = t.text.latin) :
    (u.inScope scope).lexeme = (t.inScope scope).lexeme := by
  obtain ⟨kind, name⟩ := canonical.decided t.kind t.name (by rw [text]; exact spelled)
  have kinds : u.kind.inScope scope = t.kind.inScope scope := by
    rw [kind, Kind.inScope_inScope]
  have texts : u.text = t.text := Bytes.latin_injective text
  have values : u.value = t.value := Bytes.latin_injective name
  simp only [lexeme, Token.inScope, kinds, texts, values]

theorem lexemes_eq (scope : Scope) {ts us : List Token} (spelled : ∀ t ∈ ts, t.Spelled)
    (canonical : ∀ u ∈ us, u.Canonical) (texts : us.map (·.text.latin) = ts.map (·.text.latin)) :
    us.map (fun u => (u.inScope scope).lexeme) = ts.map fun t => (t.inScope scope).lexeme := by
  induction ts generalizing us with
  | nil =>
    rw [List.map_nil] at texts
    rw [List.map_eq_nil_iff.mp texts]
  | cons t ts ih =>
    obtain ⟨u, us, rfl, text, rest⟩ := List.map_eq_cons_iff.mp texts
    obtain ⟨here, later⟩ := List.forall_mem_cons.mp spelled
    obtain ⟨here', later'⟩ := List.forall_mem_cons.mp canonical
    rw [List.map_cons, List.map_cons, Token.lexeme_eq scope here here' text, ih later later' rest]

namespace Lexer
open Scan

variable {scope : Scope} {file : Nat} {b : Bytes} {ts : List Token} {stop : Span}

/-- A lexer hands out the tokens of the stream, as the scope reads them. -/
theorem map_shown {α : Type} {p : Token → α} (keepTrivia : Bool) (same : ∀ t, p t.bare = p t)
    (runs : Runs scope file 0 b ts stop) :
    (ts.map (shown keepTrivia)).map p =
      (Stream.scan file 0 b).tokens.map fun t => p (t.inScope scope) := by
  have bare : ∀ t, p (shown keepTrivia t) = p t.bare := by
    intro t
    cases keepTrivia
    · rfl
    · exact (same t).symm
  have tokens := congrArg (List.map p) runs.stream.2
  rw [List.map_map, List.map_map] at tokens
  rw [List.map_map]
  exact (List.map_congr_left fun t _ => bare t).trans tokens

/-- What a lexer hands out is spelled as its kind demands. -/
theorem spelled_shown (keepTrivia : Bool) (runs : Runs scope file 0 b ts stop) :
    ∀ t ∈ ts.map (shown keepTrivia), t.Spelled := by
  intro t ht
  have mem : t.Spelled ∈ (ts.map (shown keepTrivia)).map Token.Spelled := List.mem_map_of_mem ht
  rw [map_shown keepTrivia (fun _ => rfl) runs] at mem
  obtain ⟨u, hu, same⟩ := List.mem_map.mp mem
  exact same ▸ (Stream.scan_spelled u hu).inScope scope

theorem constForm?_of_isLiteral {k : Kind} (literal : k.isLiteral = true) :
    ∃ form, k.constForm? = some form := by
  cases k with
  | literal f => cases f <;> exact ⟨_, rfl⟩
  | keyword w => cases w <;> first | exact ⟨_, rfl⟩ | cases literal
  | _ => cases literal

/-- Where a file lexes without a fault in a scope, its tokens with one space between any two lex
without a fault in the same scope, with the same kinds, texts and values; and the text of each
literal is how the constant of its form and its value is written. -/
theorem drain_respaced (f : SourceFile) (scope : Scope) (keepTrivia : Bool)
    (fine : (drainIn f scope keepTrivia).2.fault = none) :
    ∃ tokens stop,
      (drainIn f scope keepTrivia).1 = tokens ++ [.eof stop] ∧
        (drainIn (f.respaced tokens) scope keepTrivia).2.fault = none ∧
        (∃ tokens' stop',
          (drainIn (f.respaced tokens) scope keepTrivia).1 = tokens' ++ [.eof stop'] ∧
            tokens'.map Token.lexeme = tokens.map Token.lexeme) ∧
        ∀ t ∈ tokens, t.kind.isLiteral = true →
          ∃ form, t.kind.constForm? = some form ∧
            (Constant.mk form t.name).text = t.text.latin := by
  obtain ⟨ts, stop, runs, handed⟩ := drain_runs fine
  have spelled : ∀ t ∈ (Stream.scan f.id 0 f.content).tokens, t.Spelled := Stream.scan_spelled
  have texts := map_shown (p := Token.text) keepTrivia (fun _ => rfl) runs
  have content : spaced (ts.map (shown keepTrivia)) =
      Bytes.ofString (String.intercalate " "
        ((Stream.scan f.id 0 f.content).tokens.map (·.text.latin))) := by
    rw [ofString_spaced spelled, spaced, texts]
    rfl
  have spellings : ∀ s ∈ (Stream.scan f.id 0 f.content).tokens.map (·.text.latin),
      IsSpelling s := by
    intro s hs
    obtain ⟨t, ht, rfl⟩ := List.mem_map.mp hs
    exact ⟨t.kind, t.name, spelled t ht⟩
  -- the spellings are read back, so the spaced text runs to its end
  obtain ⟨same, canonical, stop', ends⟩ := Stream.scan_spaced f.id spellings 0 [] (.inl rfl)
  rw [List.nil_append, ← content] at same canonical ends
  obtain ⟨us, runs'⟩ := runs_of_stream scope ends
  have again := drain_fine (f := f.respaced (ts.map (shown keepTrivia))) keepTrivia runs'
  obtain ⟨us', stop'', runs'', handed'⟩ := drain_runs again
  refine ⟨ts.map (shown keepTrivia), stop, handed, again,
    ⟨us'.map (shown keepTrivia), stop'', handed', ?_⟩, ?_⟩
  · rw [map_shown keepTrivia (fun _ => rfl) runs, map_shown keepTrivia (fun _ => rfl) runs'']
    exact lexemes_eq scope spelled canonical same
  · intro t ht literal
    obtain ⟨form, found⟩ := constForm?_of_isLiteral literal
    exact ⟨form, found, (Kind.Writes.constant (spelled_shown keepTrivia runs t ht) found).1.symm⟩

/-- `x"1F"/*` and `*/0x1F**"01"<=a`, which has every form of literal but two and neighbours that
would be read as one. -/
def crowdedFile : SourceFile :=
  ⟨0, "", [120, 34, 49, 70, 34, 47, 42, 42, 47, 48, 120, 49, 70, 42, 42, 34, 48, 49, 34, 60, 61, 97],
    0⟩

theorem drain_respaced_crowded :
    (drainIn crowdedFile .relational false).2.fault = none ∧
      ∃ tokens stop,
        (drainIn crowdedFile .relational false).1 = tokens ++ [.eof stop] ∧
          (drainIn (crowdedFile.respaced tokens) .relational false).2.fault = none ∧
          (∃ tokens' stop',
            (drainIn (crowdedFile.respaced tokens) .relational false).1 =
                tokens' ++ [.eof stop'] ∧
              tokens'.map Token.lexeme = tokens.map Token.lexeme) ∧
          ∀ t ∈ tokens, t.kind.isLiteral = true →
            ∃ form, t.kind.constForm? = some form ∧
              (Constant.mk form t.name).text = t.text.latin := by
  have fine : (drainIn crowdedFile .relational false).2.fault = none := by
    decide +kernel
  exact ⟨fine, drain_respaced crowdedFile .relational false fine⟩

end Lexer
end CircuitCompiler
