import CircuitCompiler.Proofs.Spelling

/-!
# Tokens written with spaces between them

The spelling of a token is read back as that token, whatever stands behind a space. So a list of
spellings, written with a space between any two, falls into tokens with exactly these spellings.

* `Bytes.latin_ofString`: ASCII text and its bytes;
* `Scan.lexes_of_writes`: the lexeme of a spelling;
* `Stream.scan_spaced`: the tokens of a spaced text.
-/

namespace CircuitCompiler

/-! ## ASCII text -/

theorem toList_loop (b : ByteArray) (i : Nat) (r : List UInt8) :
    ByteArray.toList.loop b i r = r.reverse ++ b.data.toList.drop i := by
  fun_induction ByteArray.toList.loop b i r with
  | case1 i r inside ih =>
    have inside : i < b.data.toList.length := inside
    have byte : b.get! i = b.data.toList[i] := by
      show b.data[i]! = _
      rw [getElem!_pos b.data i inside, Array.getElem_toList]
    rw [ih, List.drop_eq_getElem_cons inside, byte, List.reverse_cons, List.append_assoc]
    rfl
  | case2 i r outside =>
    have outside : b.data.toList.length ≤ i := Nat.le_of_not_lt outside
    rw [List.drop_eq_nil_of_le outside, List.append_nil]

theorem Bytes.ofString_eq (s : String) : ofString s = s.toList.flatMap String.utf8EncodeChar := by
  have bytes : s.toByteArray.data = (s.toList.flatMap String.utf8EncodeChar).toArray := by
    rw [← s.utf8Encode_toList, List.utf8Encode, List.data_toByteArray]
  show ByteArray.toList.loop s.toByteArray 0 [] = _
  rw [toList_loop, bytes]
  rfl

theorem Bytes.ofString_append (s t : String) : ofString (s ++ t) = ofString s ++ ofString t := by
  rw [ofString_eq, ofString_eq, ofString_eq, String.toList_append, List.flatMap_append]

/-- The byte of an ASCII character. -/
def byteOf (c : Char) : UInt8 := UInt8.ofNat c.toNat

def IsAscii (s : String) : Prop := ∀ c ∈ s.toList, c.toNat < 128

instance (s : String) : Decidable (IsAscii s) :=
  List.decidableBAll (fun c : Char => c.toNat < 128) s.toList

theorem IsAscii.append {s t : String} (hs : IsAscii s) (ht : IsAscii t) : IsAscii (s ++ t) := by
  intro c hc
  rw [String.toList_append] at hc
  exact (List.mem_append.mp hc).elim (hs c) (ht c)

theorem Bytes.ofString_ascii {s : String} (ascii : IsAscii s) : ofString s = s.toList.map byteOf := by
  have each : ∀ cs : List Char, (∀ c ∈ cs, c.toNat < 128) →
      cs.flatMap String.utf8EncodeChar = cs.map byteOf := by
    intro cs all
    induction cs with
    | nil => rfl
    | cons c cs ih =>
      obtain ⟨here, later⟩ := List.forall_mem_cons.mp all
      have one : String.utf8EncodeChar c = [byteOf c] := if_pos (Nat.le_of_lt_succ here)
      rw [List.flatMap_cons, one, ih later]
      rfl
  rw [ofString_eq, each _ ascii]

theorem toNat_byteOf {c : Char} (ascii : c.toNat < 128) : (byteOf c).toNat = c.toNat := by
  rw [byteOf, UInt8.toNat_ofNat']
  omega

theorem latin_byteOf {cs : List Char} (ascii : ∀ c ∈ cs, c.toNat < 128) :
    Bytes.latin (cs.map byteOf) = String.ofList cs := by
  rw [Bytes.latin, List.map_map]
  refine congrArg String.ofList ((List.map_congr_left fun c hc => ?_).trans (List.map_id cs))
  have byte := toNat_byteOf (ascii c hc)
  rw [Function.comp_apply, byte, Char.ofNat_toNat]
  rfl

/-- ASCII text is read back from its bytes. -/
theorem Bytes.latin_ofString {s : String} (ascii : IsAscii s) : (ofString s).latin = s := by
  rw [ofString_ascii ascii, latin_byteOf ascii, String.ofList_toList]

/-! ## Classes of characters -/

/-- Characters of the class are ASCII, and their bytes of the class of bytes. -/
def Encodes (q : Char → Bool) (p : UInt8 → Bool) : Prop :=
  ∀ c, q c = true → c.toNat < 128 ∧ p (byteOf c) = true

theorem Encodes.of_same {q : Char → Bool} {p : UInt8 → Bool}
    (ascii : ∀ c, q c = true → c.toNat < 128) (same : ∀ b, p b = q (Char.ofNat b.toNat)) :
    Encodes q p := by
  intro c hc
  refine ⟨ascii c hc, ?_⟩
  rwa [same, toNat_byteOf (ascii c hc), Char.ofNat_toNat]

theorem ascii_of_isDigit (c : Char) (h : c.isDigit = true) : c.toNat < 128 := by
  simp only [Char.isDigit, Bool.and_eq_true, decide_eq_true_eq] at h
  have := UInt32.le_iff_toNat_le.mp h.2
  exact Nat.lt_of_le_of_lt this (by decide)

theorem ascii_of_isAlpha (c : Char) (h : c.isAlpha = true) : c.toNat < 128 := by
  rcases isAlpha_iff.mp h with capital | small
  · omega
  · omega

theorem ascii_of_isHexDigit (c : Char) (h : isHexDigit c = true) : c.toNat < 128 := by
  simp only [isHexDigit, Bool.or_eq_true, Bool.and_eq_true, decide_eq_true_eq] at h
  rcases h with (digit | ⟨-, h⟩) | ⟨-, h⟩
  · exact ascii_of_isDigit c digit
  · omega
  · omega

theorem ascii_of_isBinDigit (c : Char) (h : isBinDigit c = true) : c.toNat < 128 := by
  simp only [isBinDigit, Bool.or_eq_true, beq_iff_eq] at h
  rcases h with rfl | rfl <;> decide

theorem ascii_of_isNameChar (c : Char) (h : isNameChar c = true) : c.toNat < 128 := by
  simp only [isNameChar, Bool.or_eq_true, beq_iff_eq] at h
  rcases h with (letter | digit) | rfl
  · exact ascii_of_isAlpha c letter
  · exact ascii_of_isDigit c digit
  · decide

theorem encodes_letter : Encodes Char.isAlpha Scan.isLetter :=
  .of_same ascii_of_isAlpha fun b => (byte_classes b).1

theorem encodes_name : Encodes isNameChar Scan.isNameByte :=
  .of_same ascii_of_isNameChar fun b => (byte_classes b).2.1

theorem encodes_decimal : Encodes Char.isDigit Scan.isDecimal :=
  .of_same ascii_of_isDigit fun b => (byte_classes b).2.2.1

theorem encodes_hexadecimal : Encodes isHexDigit Scan.isHexadecimal :=
  .of_same ascii_of_isHexDigit fun b => (byte_classes b).2.2.2.1

theorem encodes_binary : Encodes isBinDigit Scan.isBinary :=
  .of_same ascii_of_isBinDigit fun b => (byte_classes b).2.2.2.2

/-- The bytes of a text of a class. -/
theorem Encodes.text {q : Char → Bool} {p : UInt8 → Bool} (encodes : Encodes q p) {s : String}
    (all : ∀ c ∈ s.toList, q c = true) : IsAscii s ∧ ∀ b ∈ Bytes.ofString s, p b = true := by
  have ascii : IsAscii s := fun c hc => (encodes c (all c hc)).1
  refine ⟨ascii, fun b hb => ?_⟩
  rw [Bytes.ofString_ascii ascii] at hb
  obtain ⟨c, hc, rfl⟩ := List.mem_map.mp hb
  exact (encodes c (all c hc)).2

namespace Scan

/-! ## Lexemes before a space -/

/-- Nothing stands behind, or a space. -/
def Parted (rest : Bytes) : Prop := rest = [] ∨ ∃ more, rest = 32 :: more

theorem Parted.takeWhile {rest : Bytes} (parted : Parted rest) {p : UInt8 → Bool}
    (space : p 32 = false) : rest.takeWhile p = [] := by
  rcases parted with rfl | ⟨more, rfl⟩
  · rfl
  · rw [List.takeWhile_cons, space]
    rfl

theorem Parted.run {rest : Bytes} (parted : Parted rest) {p : UInt8 → Bool} (space : p 32 = false)
    {digits : Bytes} (all : ∀ b ∈ digits, p b = true) : (digits ++ rest).takeWhile p = digits := by
  rw [List.takeWhile_append_of_pos all, parted.takeWhile space, List.append_nil]

/-- At the front of the text stands a token of the kind, of all its bytes, whatever stands behind a
space. -/
def Lexes (k : Kind) (text value : Bytes) : Prop :=
  ∀ rest, Parted rest → trivium (text ++ rest) = none ∧
    ∃ c tail, text ++ rest = c :: tail ∧ lexeme .general c tail = .token k text value

/-- The byte starts neither white space nor a comment. -/
def IsPlain (b : UInt8) : Prop := isSpace b = false ∧ b ≠ 10 ∧ b ≠ 47

theorem isPlain_of_class {p : UInt8 → Bool} {b : UInt8} (h : p b = true)
    (other : ([32, 9, 13, 12, 11, 10, 47].all fun x => !p x) = true) : IsPlain b := by
  have ne : ∀ x ∈ ([32, 9, 13, 12, 11, 10, 47] : List UInt8), b ≠ x := by
    rintro x hx rfl
    have out := List.all_eq_true.mp other b hx
    rw [h] at out
    cases out
  simp only [List.forall_mem_cons] at ne
  obtain ⟨s, t, r, f, v, newline, slash, -⟩ := ne
  exact ⟨by simp [isSpace, s, t, r, f, v], newline, slash⟩

theorem plain_of_isLetter {b : UInt8} (h : isLetter b = true) : IsPlain b :=
  isPlain_of_class h (by decide)

theorem plain_of_isDecimal {b : UInt8} (h : isDecimal b = true) :
    IsPlain b ∧ isLetter b = false := by
  refine ⟨isPlain_of_class h (by decide), ?_⟩
  simp only [isDecimal, isLetter, Bool.and_eq_true, decide_eq_true_eq, UInt8.le_iff_toNat_le,
    Bool.or_eq_false_iff, Bool.and_eq_false_iff, decide_eq_false_iff_not] at h ⊢
  have low : (57 : UInt8).toNat = 57 := rfl
  have capital : (65 : UInt8).toNat = 65 := rfl
  have small : (97 : UInt8).toNat = 97 := rfl
  omega

theorem trivium_none {c : UInt8} {rest : Bytes} (space : isSpace c = false) (newline : c ≠ 10)
    (slash : c ≠ 47) : trivium (c :: rest) = none := by
  simp [trivium, space, newline, slash]

theorem lexes_word {s : String} {c : Char} {cs : List Char} (split : s.toList = c :: cs)
    (letter : c.isAlpha = true) (all : ∀ x ∈ cs, isNameChar x = true) :
    Lexes (match Keyword.ofSpelling? s with
      | some w => .keyword w
      | none => .ident) (Bytes.ofString s) (Bytes.ofString s) := by
  intro rest parted
  have named : ∀ x ∈ s.toList, isNameChar x = true := by
    rw [split]
    exact List.forall_mem_cons.mpr ⟨by simp [isNameChar, letter], all⟩
  have ascii := (encodes_name.text named).1
  have bytes : Bytes.ofString s = byteOf c :: cs.map byteOf := by
    rw [Bytes.ofString_ascii ascii, split]
    rfl
  have first : isLetter (byteOf c) = true := (encodes_letter c letter).2
  have later : ∀ b ∈ cs.map byteOf, isNameByte b = true := by
    intro b hb
    obtain ⟨x, hx, rfl⟩ := List.mem_map.mp hb
    exact (encodes_name x (all x hx)).2
  -- no quote can stand behind a leading `x`
  have plain : (byteOf c == 120 && (cs.map byteOf ++ rest).head? == some 34) = false := by
    cases behind : cs.map byteOf with
    | nil =>
      rcases parted with rfl | ⟨more, rfl⟩ <;> simp
    | cons b bs =>
      have name : isNameByte b = true := later b (by rw [behind]; exact List.mem_cons_self)
      have quote : b ≠ 34 := by
        rintro rfl
        cases name
      simp [quote]
  have blank := plain_of_isLetter first
  rw [bytes, List.cons_append]
  refine ⟨trivium_none blank.1 blank.2.1 blank.2.2, _, _, rfl, ?_⟩
  rw [lexeme, plain, if_neg Bool.false_ne_true, if_pos first, word, parted.run (by decide) later,
    ← bytes, Bytes.latin_ofString ascii]
  cases Keyword.ofSpelling? s <;> rfl

theorem number_of_radix {form : LiteralForm} {isDigit : UInt8 → Bool} {mark digits rest : Bytes}
    (parted : Parted rest) (known : radix (mark ++ digits ++ rest) = (form, isDigit, mark))
    (space : isDigit 32 = false) (all : ∀ b ∈ digits, isDigit b = true) (some : digits ≠ []) :
    number (mark ++ digits ++ rest) = .token (.literal form) (mark ++ digits) digits := by
  rw [number, known]
  simp only
  rw [List.append_assoc, List.drop_left, parted.run space all, List.drop_left,
    parted.takeWhile (by decide), List.append_nil]
  simp [some]

theorem radix_decimal {digits rest : Bytes} (parted : Parted rest)
    (all : ∀ b ∈ digits, isDecimal b = true) :
    radix (digits ++ rest) = (.int, isDecimal, []) := by
  match digits, all with
  | [], _ => rcases parted with rfl | ⟨more, rfl⟩ <;> rfl
  | [b], _ =>
    rcases parted with rfl | ⟨more, rfl⟩
    · unfold radix
      split <;> simp_all
    · unfold radix
      split <;> simp_all
  | b :: b' :: more, all =>
    have digit : isDecimal b' = true := all b' (by simp)
    unfold radix
    split
    · next same =>
      simp only [List.cons_append, List.cons.injEq] at same
      rw [same.2.1] at digit
      cases digit
    · next same =>
      simp only [List.cons_append, List.cons.injEq] at same
      rw [same.2.1] at digit
      cases digit
    · rfl

/-- A number, from its first digit on. -/
theorem lexes_number {form : LiteralForm} {isDigit : UInt8 → Bool} {mark digits : Bytes}
    (known : ∀ rest, Parted rest → radix (mark ++ digits ++ rest) = (form, isDigit, mark))
    (space : isDigit 32 = false) (all : ∀ b ∈ digits, isDigit b = true) (some : digits ≠ [])
    (first : ∃ c tail, mark ++ digits = c :: tail ∧ isDecimal c = true) :
    Lexes (.literal form) (mark ++ digits) digits := by
  intro rest parted
  obtain ⟨c, tail, split, digit⟩ := first
  obtain ⟨⟨blank, newline, slash⟩, letter⟩ := plain_of_isDecimal digit
  have x : (c == 120) = false := by
    refine beq_eq_false_iff_ne.mpr ?_
    rintro rfl
    cases letter
  have number := number_of_radix parted (known rest parted) space all some
  rw [split, List.cons_append] at number ⊢
  refine ⟨trivium_none blank newline slash, _, _, rfl, ?_⟩
  rw [lexeme, x, Bool.false_and, if_neg Bool.false_ne_true, if_neg (by simp [letter]), if_pos digit,
    number]

theorem vector_closed {form : LiteralForm} {isDigit : UInt8 → Bool} {opening digits rest : Bytes}
    (quote : isDigit 34 = false) (all : ∀ b ∈ digits, isDigit b = true) :
    vector form isDigit opening (digits ++ 34 :: rest) =
      .token (.literal form) (opening ++ digits ++ [34]) digits := by
  have run : (digits ++ 34 :: rest).takeWhile isDigit = digits := by
    rw [List.takeWhile_append_of_pos all, List.takeWhile_cons, quote]
    exact List.append_nil _
  simp only [vector, run, List.drop_left]
  rfl

theorem lexes_binVec {digits : Bytes} (all : ∀ b ∈ digits, isBinary b = true) :
    Lexes (.literal .binVec) ([34] ++ digits ++ [34]) digits := by
  intro rest _
  have split : [34] ++ digits ++ [34] ++ rest = 34 :: (digits ++ 34 :: rest) := by simp
  rw [split]
  refine ⟨trivium_none rfl (by decide) (by decide), _, _, rfl, ?_⟩
  exact vector_closed rfl all

theorem lexes_hexVec {digits : Bytes} (all : ∀ b ∈ digits, isHexadecimal b = true) :
    Lexes (.literal .hexVec) ([120, 34] ++ digits ++ [34]) digits := by
  intro rest _
  have split : [120, 34] ++ digits ++ [34] ++ rest = 120 :: 34 :: (digits ++ 34 :: rest) := by simp
  rw [split]
  refine ⟨trivium_none rfl (by decide) (by decide), _, _, rfl, ?_⟩
  exact vector_closed rfl all

theorem lexes_symbol (s : Symbol) :
    Lexes ((Kind.symbol s).inScope .general) (Bytes.ofString s.spelling)
      (Bytes.ofString s.spelling) := by
  have ascii : IsAscii s.spelling := by cases s <;> decide
  rw [Bytes.ofString_ascii ascii]
  rintro rest (rfl | ⟨more, rfl⟩)
  · cases s <;> exact ⟨rfl, _, _, rfl, rfl⟩
  · cases s <;> exact ⟨rfl, _, _, rfl, rfl⟩

theorem keyword_shape (w : Keyword) : ∃ c cs, w.spelling.toList = c :: cs ∧ c.isAlpha = true ∧
    ∀ x ∈ cs, isNameChar x = true := by
  cases w <;> exact ⟨_, _, rfl, by decide, List.all_eq_true.mp (by decide)⟩

theorem ofSpelling?_spelling (w : Keyword) : Keyword.ofSpelling? w.spelling = some w := by
  cases w <;> decide

/-- A literal, from the marks and the digits of its form. -/
theorem lexes_literal {value : String} (f : LiteralForm)
    (proper : (Constant.mk f.constForm value).Proper) :
    IsAscii (Constant.mk f.constForm value).text ∧ IsAscii value ∧
      Lexes (.literal f) (Bytes.ofString (Constant.mk f.constForm value).text)
        (Bytes.ofString value) := by
  have filled : IsAscii value → value.toList ≠ [] → Bytes.ofString value ≠ [] := by
    intro ascii some
    rw [Bytes.ofString_ascii ascii]
    simpa using some
  have quote : Bytes.ofString "\"" = [34] := (Bytes.ofString_ascii (by decide)).trans rfl
  cases f with
  | int =>
    obtain ⟨digits, some⟩ := proper
    obtain ⟨ascii, bytes⟩ := encodes_decimal.text digits
    have some := filled ascii some
    obtain ⟨c, tail, split⟩ := List.exists_cons_of_ne_nil some
    have first : isDecimal c = true := bytes c (by rw [split]; exact List.mem_cons_self)
    have known : ∀ rest, Parted rest →
        radix ([] ++ Bytes.ofString value ++ rest) = (.int, isDecimal, []) :=
      fun rest parted => radix_decimal parted bytes
    exact ⟨ascii, ascii, lexes_number known rfl bytes some ⟨c, tail, split, first⟩⟩
  | hexInt =>
    obtain ⟨digits, some⟩ := proper
    obtain ⟨ascii, bytes⟩ := encodes_hexadecimal.text digits
    have mark : Bytes.ofString "0x" = [48, 120] := (Bytes.ofString_ascii (by decide)).trans rfl
    simp only [Constant.text, LiteralForm.constForm, Bytes.ofString_append, mark]
    refine ⟨.append (by decide) ascii, ascii, ?_⟩
    exact lexes_number (fun _ _ => rfl) rfl bytes (filled ascii some) ⟨48, _, rfl, rfl⟩
  | binInt =>
    obtain ⟨digits, some⟩ := proper
    obtain ⟨ascii, bytes⟩ := encodes_binary.text digits
    have mark : Bytes.ofString "0b" = [48, 98] := (Bytes.ofString_ascii (by decide)).trans rfl
    simp only [Constant.text, LiteralForm.constForm, Bytes.ofString_append, mark]
    refine ⟨.append (by decide) ascii, ascii, ?_⟩
    exact lexes_number (fun _ _ => rfl) rfl bytes (filled ascii some) ⟨48, _, rfl, rfl⟩
  | binVec =>
    obtain ⟨ascii, bytes⟩ := encodes_binary.text proper
    simp only [Constant.text, LiteralForm.constForm, Bytes.ofString_append, quote]
    exact ⟨.append (.append (by decide) ascii) (by decide), ascii, lexes_binVec bytes⟩
  | hexVec =>
    obtain ⟨ascii, bytes⟩ := encodes_hexadecimal.text proper
    have mark : Bytes.ofString "x\"" = [120, 34] := (Bytes.ofString_ascii (by decide)).trans rfl
    simp only [Constant.text, LiteralForm.constForm, Bytes.ofString_append, mark, quote]
    exact ⟨.append (.append (by decide) ascii) (by decide), ascii, lexes_hexVec bytes⟩

/-- A spelling is read as the token that it spells. -/
theorem lexes_of_writes {k : Kind} {text value : String} (h : k.Writes text value) :
    IsAscii text ∧ IsAscii value ∧
      Lexes (k.inScope .general) (Bytes.ofString text) (Bytes.ofString value) := by
  cases k with
  | invalid | eof => exact h.elim
  | ident =>
    obtain ⟨rfl, name⟩ := h
    obtain ⟨c, cs, split, letter, all⟩ := name.shape
    have ascii := (encodes_name.text name.chars).1
    have lexes := lexes_word split letter all
    rw [name.free] at lexes
    exact ⟨ascii, ascii, lexes⟩
  | keyword w =>
    obtain ⟨rfl, rfl⟩ := h
    obtain ⟨c, cs, split, letter, all⟩ := keyword_shape w
    have ascii : IsAscii w.spelling := by cases w <;> decide
    have lexes := lexes_word split letter all
    rw [ofSpelling?_spelling w] at lexes
    exact ⟨ascii, ascii, lexes⟩
  | symbol s =>
    obtain ⟨rfl, rfl⟩ := h
    have ascii : IsAscii s.spelling := by cases s <;> decide
    exact ⟨ascii, ascii, lexes_symbol s⟩
  | literal f =>
    obtain ⟨rfl, proper⟩ := h
    exact lexes_literal f proper

/-! ## Spaces -/

theorem gap_of_none {file pos : Nat} {b : Bytes} (h : trivium b = none) :
    gap file pos b = ⟨[], none, pos, b⟩ := by
  rw [gap]
  split
  · rfl
  · next t found =>
    rw [h] at found
    cases found

/-- One space in front of what is no white space. -/
theorem gap_of_space {file pos : Nat} {b : Bytes} (h : trivium b = none) :
    (gap file pos (32 :: b)).fault = none ∧ (gap file pos (32 :: b)).rest = b := by
  have run : b.takeWhile isSpace = [] := by
    cases b with
    | nil => rfl
    | cons c rest =>
      have blank : isSpace c = false := by
        cases space : isSpace c with
        | false => rfl
        | true => simp [trivium, space] at h
      rw [List.takeWhile_cons, blank]
      rfl
  have one : trivium (32 :: b) = some ⟨.space, [32], true⟩ := by
    rw [trivium_of_begins (.space rfl), run]
  rw [gap]
  split
  · next none =>
    rw [one] at none
    cases none
  · next t found =>
    rw [one] at found
    cases found
    have behind : gap file (pos + 1) b = ⟨[], none, pos + 1, b⟩ := gap_of_none h
    simp [behind]

end Scan

namespace Stream
open Scan

/-- Behind at most one space, a spelling gives one token, and what is behind it the others. -/
theorem scan_of_lexes (file pos : Nat) {k : Kind} {text value lead rest : Bytes}
    (lexes : Lexes k text value) (parted : Parted rest) (leads : lead = [] ∨ lead = [32]) :
    ∃ u pos', scan file pos (lead ++ (text ++ rest)) =
        ⟨u :: (scan file pos' rest).tokens, (scan file pos' rest).stop⟩ ∧
      u.kind = k ∧ u.text = text ∧ u.value = value := by
  obtain ⟨none, c, tail, split, found⟩ := lexes rest parted
  have reached : (gap file pos (lead ++ (text ++ rest))).fault = .none ∧
      (gap file pos (lead ++ (text ++ rest))).rest = c :: tail := by
    rw [← split]
    rcases leads with rfl | rfl
    · rw [List.nil_append, gap_of_none none]
      exact ⟨rfl, rfl⟩
    · exact gap_of_space none
  have read := read_of_lexeme .general reached.1 reached.2
  rw [found] at read
  have valid : k ≠ .eof := by
    have sound := lexeme_sound .general c tail
    rw [found] at sound
    exact sound.1
  have behind : (c :: tail).drop text.length = rest := by
    rw [← split, List.drop_left]
  simp only [Lexeme.placed, Lexeme.text, behind] at read
  rw [scan_of_token (by rw [read]) (by rw [read]; exact valid), read]
  exact ⟨_, _, rfl, rfl, rfl, rfl⟩

end Stream

/-- The token is spelled as its kind demands, and no token of another kind is spelled so. -/
structure Token.Canonical (t : Token) : Prop where
  spelled : t.Spelled
  decided : ∀ (k : Kind) value, k.Writes t.text.latin value → t.kind = k.inScope .general ∧ t.name = value

/-- The text is the spelling of a token. -/
def IsSpelling (text : String) : Prop := ∃ k : Kind, ∃ value, k.Writes text value

namespace Stream
open Scan

/-- A text spells one kind in the general scope, with one value. -/
theorem writes_unique {k k' : Kind} {text value value' : String} (h : k.Writes text value)
    (h' : k'.Writes text value') :
    k.inScope .general = k'.inScope .general ∧ value = value' := by
  obtain ⟨-, ascii, lexes⟩ := lexes_of_writes h
  obtain ⟨-, ascii', lexes'⟩ := lexes_of_writes h'
  -- the text alone is read as one token
  obtain ⟨-, c, tail, split, found⟩ := lexes [] (.inl rfl)
  obtain ⟨-, c', tail', split', found'⟩ := lexes' [] (.inl rfl)
  obtain ⟨rfl, rfl⟩ := List.cons_eq_cons.mp (split.symm.trans split')
  rw [found] at found'
  injection found' with kinds _ values
  refine ⟨kinds, ?_⟩
  rw [← Bytes.latin_ofString ascii, values, Bytes.latin_ofString ascii']

theorem canonical_of_lexes {k : Kind} {text value : String} {u : Token} (h : k.Writes text value)
    (kind : u.kind = k.inScope .general) (bytes : u.text = Bytes.ofString text)
    (digits : u.value = Bytes.ofString value) : u.text.latin = text ∧ u.Canonical := by
  obtain ⟨ascii, asciiValue, -⟩ := lexes_of_writes h
  have latin : u.text.latin = text := by rw [bytes, Bytes.latin_ofString ascii]
  have name : u.name = value := by rw [Token.name, digits, Bytes.latin_ofString asciiValue]
  refine ⟨latin, ?_, fun k' value' h' => ?_⟩
  · rw [Token.Spelled, latin, name, kind]
    exact (Kind.writes_inScope .general).mpr h
  · rw [latin] at h'
    obtain ⟨kinds, values⟩ := writes_unique h h'
    exact ⟨kind.trans kinds, name.trans values⟩

/-- Spellings with a space between any two are read as the tokens that they spell. -/
theorem scan_spaced (file : Nat) {ts : List String} (spellings : ∀ t ∈ ts, IsSpelling t) :
    ∀ (pos : Nat) (lead : Bytes), (lead = [] ∨ lead = [32] ∧ ts ≠ []) →
      let s := scan file pos (lead ++ Bytes.ofString (String.intercalate " " ts))
      s.tokens.map (·.text.latin) = ts ∧ (∀ u ∈ s.tokens, u.Canonical) ∧ ∃ span, s.stop = .eof span := by
  induction ts with
  | nil =>
    intro pos lead leads
    obtain rfl : lead = [] := leads.resolve_right fun h => h.2 rfl
    have empty : Bytes.ofString (String.intercalate " " []) = [] := by
      rw [Bytes.ofString_eq]
      rfl
    have none : gap file pos [] = ⟨[], .none, pos, []⟩ := gap_of_none rfl
    have fine : (gap file pos []).fault = .none := by rw [none]
    have read := read_of_empty .general fine (by rw [none])
    have sound : (Scan.read .general file pos []).fault = .none := by rw [read]
    have eof := scan_of_eof sound (by rw [read]; rfl)
    rw [empty, List.append_nil, eof]
    exact ⟨rfl, ⟨fun u hu => absurd hu List.not_mem_nil, _, rfl⟩⟩
  | cons t ts ih =>
    intro pos lead leads
    obtain ⟨⟨k, value, writes⟩, later⟩ := List.forall_mem_cons.mp spellings
    have lexes := (lexes_of_writes writes).2.2
    have leads : lead = [] ∨ lead = [32] := leads.imp_right And.left
    -- what stands behind the first spelling: nothing, or a space and the others
    obtain ⟨space, split, parted, spaced⟩ : ∃ space, Bytes.ofString (String.intercalate " " (t :: ts)) =
        Bytes.ofString t ++ (space ++ Bytes.ofString (String.intercalate " " ts)) ∧
        Parted (space ++ Bytes.ofString (String.intercalate " " ts)) ∧
        (space = [] ∨ space = [32] ∧ ts ≠ []) := by
      cases ts with
      | nil =>
        have empty : Bytes.ofString (String.intercalate " " []) = [] := by
          rw [Bytes.ofString_eq]
          rfl
        refine ⟨[], ?_, ?_, .inl rfl⟩
        · rw [empty, String.intercalate_singleton]
          simp
        · rw [empty]
          exact .inl rfl
      | cons t' ts =>
        have space : Bytes.ofString " " = [32] := by
          rw [Bytes.ofString_eq]
          rfl
        refine ⟨[32], ?_, .inr ⟨_, rfl⟩, .inr ⟨rfl, by simp⟩⟩
        rw [String.intercalate_cons_cons, Bytes.ofString_append, Bytes.ofString_append, space,
          List.append_assoc]
    obtain ⟨u, pos', scanned, kind, text, digits⟩ :=
      scan_of_lexes file pos lexes parted leads
    obtain ⟨latin, canonical⟩ := canonical_of_lexes writes kind text digits
    obtain ⟨texts, all, stop⟩ := ih later pos' space spaced
    rw [split]
    simp only [scanned]
    refine ⟨?_, List.forall_mem_cons.mpr ⟨canonical, all⟩, stop⟩
    rw [List.map_cons, latin, texts]

end Stream
end CircuitCompiler
