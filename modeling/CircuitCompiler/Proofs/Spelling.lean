import CircuitCompiler.Expr.Parse
import CircuitCompiler.Proofs.Scan

/-!
# How tokens are spelled

What is written under a token of each kind. Reserved words and symbols have one spelling, a name is
a letter with letters, digits and underscores behind it, and a literal is its digits between the
marks of its form, which is how `Constant.text` writes it.

* `Scan.lexeme_writes`: the lexemes that the scanner finds;
* `Stream.scan_spelled`: the tokens of a stream.
-/

namespace CircuitCompiler

/-! ## Bytes as characters -/

theorem Bytes.latin_append (a b : Bytes) : (a ++ b).latin = a.latin ++ b.latin := by
  simp [latin]

theorem Bytes.toList_latin (b : Bytes) :
    b.latin.toList = b.map fun x => Char.ofNat x.toNat := by
  simp [latin]

/-- What holds of the bytes below 256 holds of all bytes. -/
theorem forall_byte {p : UInt8 → Prop} (h : ∀ n : Fin 256, p (UInt8.ofNat n)) (b : UInt8) :
    p b := by
  have found := h ⟨b.toNat, b.toNat_lt⟩
  rwa [UInt8.ofNat_toNat] at found

/-- A hexadecimal digit of either case. -/
def isHexDigit (c : Char) : Bool :=
  c.isDigit || (97 ≤ c.toNat && c.toNat ≤ 102) || (65 ≤ c.toNat && c.toNat ≤ 70)

def isBinDigit (c : Char) : Bool := c == '0' || c == '1'

/-- What names go on with. -/
def isNameChar (c : Char) : Bool := c.isAlpha || c.isDigit || c == '_'

/-- Letters are capital or small. -/
theorem isAlpha_iff {c : Char} :
    c.isAlpha = true ↔ (65 ≤ c.toNat ∧ c.toNat ≤ 90) ∨ (97 ≤ c.toNat ∧ c.toNat ≤ 122) := by
  show (decide (65 ≤ c.val ∧ c.val ≤ 90) ||
    decide (97 ≤ c.val) && decide (c.val ≤ 122)) = true ↔ _
  simp only [Bool.or_eq_true, Bool.and_eq_true, decide_eq_true_eq, UInt32.le_iff_toNat_le]
  rfl

/-- The classes of bytes are those of the characters that the bytes stand for. -/
theorem byte_classes (b : UInt8) :
    Scan.isLetter b = (Char.ofNat b.toNat).isAlpha ∧
      Scan.isNameByte b = isNameChar (Char.ofNat b.toNat) ∧
      Scan.isDecimal b = (Char.ofNat b.toNat).isDigit ∧
      Scan.isHexadecimal b = isHexDigit (Char.ofNat b.toNat) ∧
      Scan.isBinary b = isBinDigit (Char.ofNat b.toNat) := by
  revert b
  exact forall_byte (by decide +kernel)

theorem isAlpha_of_isLetter (b : UInt8) (h : Scan.isLetter b = true) :
    (Char.ofNat b.toNat).isAlpha = true := by
  rwa [← (byte_classes b).1]

theorem isNameChar_of_isNameByte (b : UInt8) (h : Scan.isNameByte b = true) :
    isNameChar (Char.ofNat b.toNat) = true := by
  rwa [← (byte_classes b).2.1]

theorem isDigit_of_isDecimal (b : UInt8) (h : Scan.isDecimal b = true) :
    (Char.ofNat b.toNat).isDigit = true := by
  rwa [← (byte_classes b).2.2.1]

theorem isHexDigit_of_isHexadecimal (b : UInt8) (h : Scan.isHexadecimal b = true) :
    isHexDigit (Char.ofNat b.toNat) = true := by
  rwa [← (byte_classes b).2.2.2.1]

theorem isBinDigit_of_isBinary (b : UInt8) (h : Scan.isBinary b = true) :
    isBinDigit (Char.ofNat b.toNat) = true := by
  rwa [← (byte_classes b).2.2.2.2]

/-! ## Names and constants -/

/-- A word that can be a name: a letter with name characters behind it, and not reserved. -/
structure IsName (s : String) : Prop where
  shape : ∃ c rest, s.toList = c :: rest ∧ c.isAlpha = true ∧ ∀ x ∈ rest, isNameChar x = true
  free : Keyword.ofSpelling? s = none

theorem IsName.chars {s : String} (h : IsName s) : ∀ x ∈ s.toList, isNameChar x = true := by
  obtain ⟨c, rest, split, letter, all⟩ := h.shape
  rw [split]
  intro x hx
  rcases List.mem_cons.mp hx with rfl | hx
  · simp [isNameChar, letter]
  · exact all x hx

def ConstForm.isDigit : ConstForm → Char → Bool
  | .int => Char.isDigit
  | .hexInt | .hexVec => isHexDigit
  | .binInt | .binVec => isBinDigit
  | .bool => fun _ => false

/-- A constant that can be written: a truth value, or digits of its form. Only a vector may be
empty. -/
def Constant.Proper (c : Constant) : Prop :=
  match c.form with
  | .bool => c.digits = "true" ∨ c.digits = "false"
  | .binVec | .hexVec => ∀ x ∈ c.digits.toList, c.form.isDigit x = true
  | _ => (∀ x ∈ c.digits.toList, c.form.isDigit x = true) ∧ c.digits.toList ≠ []

/-! ## Spellings -/

def Symbol.spelling : Symbol → String
  | .colon | .rangeSep => ":"
  | .ltEq | .sigAssign => "<="
  | s => s.name

/-- The form of the constant that a literal stands for. -/
def LiteralForm.constForm : LiteralForm → ConstForm
  | .int => .int
  | .hexInt => .hexInt
  | .binInt => .binInt
  | .binVec => .binVec
  | .hexVec => .hexVec

/-- A text and a value that a token of a kind can have. -/
def Kind.Writes (k : Kind) (text value : String) : Prop :=
  match k with
  | .ident => value = text ∧ IsName text
  | .keyword w => value = text ∧ text = w.spelling
  | .literal f =>
    text = (Constant.mk f.constForm value).text ∧ (Constant.mk f.constForm value).Proper
  | .symbol s => value = text ∧ text = s.spelling
  | .eof | .invalid => False

/-- The text of a token is one of its kind, and its value what it stands for. -/
def Token.Spelled (t : Token) : Prop := t.kind.Writes t.text.latin t.name

theorem Kind.writes_inScope {k : Kind} {text value : String} (scope : Scope) :
    (k.inScope scope).Writes text value ↔ k.Writes text value := by
  cases k with
  | symbol s => cases s <;> cases scope <;> rfl
  | _ => rfl

theorem Token.Spelled.inScope {t : Token} (h : t.Spelled) (scope : Scope) :
    (t.inScope scope).Spelled :=
  (Kind.writes_inScope scope).mpr h

/-- An identifier stands for its text, which is a name. -/
theorem Token.Spelled.ident {t : Token} (h : t.Spelled) (kind : t.kind = .ident) :
    t.name = t.text.latin ∧ IsName t.text.latin := by
  rw [Token.Spelled, kind] at h
  exact h

namespace Scan

/-! ## Lexemes -/

/-- What a lexeme writes, if it is no fault. -/
def Lexeme.Writes : Lexeme → Prop
  | token kind text value => kind.Writes text.latin value.latin
  | broken .. => True

theorem holds_of_mem_takeWhile {p : UInt8 → Bool} {b : Bytes} {x : UInt8}
    (h : x ∈ b.takeWhile p) : p x = true :=
  List.all_eq_true.mp List.all_takeWhile x h

theorem mem_map_latin {p : UInt8 → Bool} {q : Char → Bool}
    (h : ∀ b, p b = true → q (Char.ofNat b.toNat) = true) {bytes : Bytes}
    (all : ∀ b ∈ bytes, p b = true) : ∀ x ∈ bytes.latin.toList, q x = true := by
  intro x hx
  rw [Bytes.toList_latin] at hx
  obtain ⟨b, hb, rfl⟩ := List.mem_map.mp hx
  exact h b (all b hb)

theorem word_writes {b : UInt8} (letter : isLetter b = true) (rest : Bytes) :
    (word b rest).Writes := by
  simp only [word]
  split
  · next w found =>
    have spelled : w.spelling = Bytes.latin (b :: rest.takeWhile isNameByte) := by
      simpa using List.find?_some found
    exact ⟨rfl, spelled.symm⟩
  · next free =>
    refine ⟨rfl, ⟨Char.ofNat b.toNat, (Bytes.latin (rest.takeWhile isNameByte)).toList, ?_, ?_, ?_⟩,
      free⟩
    · rw [Bytes.toList_latin, Bytes.toList_latin, List.map_cons]
    · exact isAlpha_of_isLetter b letter
    · exact mem_map_latin isNameChar_of_isNameByte fun c hc => holds_of_mem_takeWhile hc

theorem vector_writes {form : LiteralForm} {isDigit : UInt8 → Bool} {opening : Bytes} (rest : Bytes)
    (written : ∀ digits : Bytes, (∀ b ∈ digits, isDigit b = true) →
      (Kind.literal form).Writes (opening ++ digits ++ [34]).latin digits.latin) :
    (vector form isDigit opening rest).Writes := by
  simp only [vector]
  split
  · trivial
  · next c more _ =>
    split
    · next quote =>
      obtain rfl := eq_of_beq quote
      exact written _ fun b hb => holds_of_mem_takeWhile hb
    · split <;> trivial

theorem hexVec_writes (rest : Bytes) : (vector .hexVec isHexadecimal [120, 34] rest).Writes := by
  refine vector_writes rest fun digits all => ⟨?_, ?_⟩
  · rw [Bytes.latin_append, Bytes.latin_append]
    rfl
  · exact mem_map_latin isHexDigit_of_isHexadecimal all

theorem binVec_writes (rest : Bytes) : (vector .binVec isBinary [34] rest).Writes := by
  refine vector_writes rest fun digits all => ⟨?_, ?_⟩
  · rw [Bytes.latin_append, Bytes.latin_append]
    rfl
  · exact mem_map_latin isBinDigit_of_isBinary all

/-- What digits of the radix of a number write. -/
theorem radix_writes (b : Bytes) {digits : Bytes} (all : ∀ x ∈ digits, (radix b).2.1 x = true)
    (some : digits ≠ []) :
    (Kind.literal (radix b).1).Writes ((radix b).2.2 ++ digits).latin digits.latin := by
  have filled : digits.latin.toList ≠ [] := by
    rw [Bytes.toList_latin]
    simpa using some
  rw [Bytes.latin_append]
  unfold radix at all ⊢
  split at all
  · exact ⟨rfl, mem_map_latin isHexDigit_of_isHexadecimal all, filled⟩
  · exact ⟨rfl, mem_map_latin isBinDigit_of_isBinary all, filled⟩
  · exact ⟨by simp [Bytes.latin, Constant.text, LiteralForm.constForm],
      mem_map_latin isDigit_of_isDecimal all, filled⟩

theorem number_writes (b : Bytes) : (number b).Writes := by
  simp only [number]
  split
  · trivial
  · next whole =>
    simp only [Bool.or_eq_true, not_or, Bool.not_eq_true, Bool.not_eq_false', List.isEmpty_iff]
      at whole
    obtain ⟨some, alone⟩ := whole
    rw [alone, List.append_nil]
    exact radix_writes b (fun x hx => holds_of_mem_takeWhile hx) (by simpa using some)

theorem symbol2_spelling {scope : Scope} {b0 b1 : UInt8} {s : Symbol}
    (h : symbol2 scope b0 b1 = some s) : Bytes.latin [b0, b1] = s.spelling := by
  unfold symbol2 at h
  split at h
  case h_6 => cases h
  all_goals
    next first second =>
      cases h
      simp only [Bytes.latin, List.map_cons, List.map_nil, first, second]
      first | rfl | (split <;> rfl)

theorem symbol1_spelling {scope : Scope} {b : UInt8} {s : Symbol}
    (h : symbol1 scope b = some s) : Bytes.latin [b] = s.spelling := by
  unfold symbol1 at h
  split at h
  case h_24 => cases h
  all_goals
    next char =>
      cases h
      simp only [Bytes.latin, List.map_cons, List.map_nil, char]
      first | rfl | (split <;> rfl)

theorem punctuation_writes (scope : Scope) (b : UInt8) (rest : Bytes) :
    (punctuation scope b rest).Writes := by
  simp only [punctuation]
  split
  · next s b1 pair =>
    cases rest with
    | nil => cases pair
    | cons c rest =>
      obtain ⟨s', found, same⟩ := Option.map_eq_some_iff.mp pair
      cases same
      exact ⟨rfl, symbol2_spelling found⟩
  · split
    · next s found => exact ⟨rfl, symbol1_spelling found⟩
    · trivial

/-- What the scanner finds is spelled as its kind demands. -/
theorem lexeme_writes (scope : Scope) (b : UInt8) (rest : Bytes) :
    (lexeme scope b rest).Writes := by
  unfold lexeme
  by_cases hex : (b == 120 && rest.head? == some 34) = true
  · rw [if_pos hex]
    obtain rfl : b = 120 := by simpa using (Bool.and_eq_true_iff.mp hex).1
    exact hexVec_writes _
  rw [if_neg hex]
  by_cases letter : isLetter b = true
  · rw [if_pos letter]
    exact word_writes letter rest
  rw [if_neg letter]
  by_cases digit : isDecimal b = true
  · rw [if_pos digit]
    exact number_writes (b :: rest)
  rw [if_neg digit]
  by_cases quote : (b == 34) = true
  · rw [if_pos quote]
    obtain rfl := eq_of_beq quote
    exact binVec_writes rest
  · rw [if_neg quote]
    exact punctuation_writes scope b rest

end Scan

/-- Every token of a stream is spelled as its kind demands. -/
theorem Stream.scan_spelled {file pos : Nat} {b : Bytes} :
    ∀ t ∈ (scan file pos b).tokens, t.Spelled := by
  intro t ht
  fun_induction scan file pos b with
  | case1 pos b step more behind ih =>
    rcases List.mem_cons.mp ht with rfl | later
    · obtain ⟨fine, more⟩ := more
      obtain ⟨c, tail, kind, text, value, taken⟩ := Scan.tokenStep_of_read fine more
      have written := Scan.lexeme_writes .general c tail
      rw [taken.found] at written
      simp only [step, taken.step]
      exact written
    · exact ih later
  | case2 => cases ht
  | case3 => cases ht

end CircuitCompiler
