import CircuitCompiler.Proofs.Grammar
import CircuitCompiler.Proofs.Precedence

/-!
# Reading rendered expressions back

The text of an expression in VHDL is cut into words and marks again and read by the precedence of
VHDL. Rendering adds no parentheses, so the operators group as they did before only where they group
so in VHDL, too.

* `Vhdl.read?`: reading a text;
* `Vhdl.Scans`, `Vhdl.Tree.Fits.scans`: what lexemes a text has, and that of an expression its own;
* `Expr.inVhdl?`: an expression with the operators of VHDL;
* `Expr.vhdl_read_iff`: when an expression is read back from its text.
-/

namespace CircuitCompiler

/-! ## Cutting a text into words -/

namespace Vhdl

/-- What a character is a part of. -/
inductive CharClass where
  | blank
  | bracket
  | word
  | mark
  deriving DecidableEq, Repr

/-- Words are names with dots, numbers and quoted vectors; what else is not blank is a mark. -/
def classOf (c : Char) : CharClass :=
  if c = ' ' then .blank
  else if c = '(' ∨ c = ')' then .bracket
  else if isNameChar c ∨ c = '.' ∨ c = '#' ∨ c.toNat = 34 then .word
  else .mark

/-- The words, marks and brackets of a text; words and marks are as long as they can be. -/
def wordsOf : List Char → List (List Char)
  | [] => []
  | c :: rest =>
    match classOf c with
    | .blank => wordsOf rest
    | .bracket => [c] :: wordsOf rest
    | k =>
      if rest.head?.map classOf = some k then
        match wordsOf rest with
        | w :: ws => (c :: w) :: ws
        | [] => [[c]]
      else [c] :: wordsOf rest

end Vhdl

/-- The constant that a word writes, by the marks it starts with. -/
def Constant.ofVhdl? : List Char → Option Constant
  | [] => none
  | c :: rest =>
    if c.toNat = 34 then some ⟨.binVec, String.ofList rest.dropLast⟩
    else if c = 'x' ∧ rest.head?.map Char.toNat = some 34 then
      some ⟨.hexVec, String.ofList rest.tail.dropLast⟩
    else if c.isDigit then
      if "16#".toList.isPrefixOf (c :: rest) then
        some ⟨.hexInt, String.ofList (rest.drop 2).dropLast⟩
      else if "2#".toList.isPrefixOf (c :: rest) then
        some ⟨.binInt, String.ofList (rest.drop 1).dropLast⟩
      else some ⟨.int, String.ofList (c :: rest)⟩
    else if c :: rest = "true".toList ∨ c :: rest = "false".toList then
      some ⟨.bool, String.ofList (c :: rest)⟩
    else none

namespace Vhdl

/-- Whether a word can be a part of a name. -/
def isNamePart (s : String) : Bool :=
  s.toList.head?.any Char.isAlpha && s.toList.all isNameChar && (Lexeme.reserved? s).isNone

def Lexeme.ofWord? (w : String) : Option Lexeme :=
  match reserved? w with
  | some x => some x
  | none =>
    match Constant.ofVhdl? w.toList with
    | some c => some (.const c)
    | none =>
      let segments := (w.toList.splitOn '.').map String.ofList
      if segments.all isNamePart then some (.name segments) else none

def scan? (cs : List Char) : Option (List Lexeme) :=
  (wordsOf cs).mapM fun w => Lexeme.ofWord? (String.ofList w)

def read? (s : String) : Option Tree := (scan? s.toList).bind readLexemes?

/-! ## Words -/

/-- A word or a mark, which is not empty. -/
structure IsRun (w : List Char) (k : CharClass) : Prop where
  filled : w ≠ []
  alike : ∀ c ∈ w, classOf c = k
  kind : k = .word ∨ k = .mark

theorem isRun_of_all {w : List Char} {k : CharClass} (filled : w ≠ [])
    (alike : w.all (classOf · == k) = true) (kind : k = .word ∨ k = .mark) : IsRun w k :=
  ⟨filled, fun c hc => eq_of_beq (List.all_eq_true.mp alike c hc), kind⟩

/-- What may follow a word or a mark: the end, a blank or a bracket. -/
def Ends (rest : List Char) : Prop :=
  ∀ c, rest.head? = some c → classOf c = .blank ∨ classOf c = .bracket

theorem wordsOf_opening (rest : List Char) : wordsOf ('(' :: rest) = ['('] :: wordsOf rest := rfl

theorem wordsOf_closing (rest : List Char) : wordsOf (')' :: rest) = [')'] :: wordsOf rest := rfl

/-- A word or a mark goes up to what may follow it. -/
theorem wordsOf_run {w rest : List Char} {k : CharClass} (run : IsRun w k) (ends : Ends rest) :
    wordsOf (w ++ rest) = w :: wordsOf rest := by
  obtain ⟨filled, alike, kind⟩ := run
  have stops : ¬rest.head?.map classOf = some k := by
    intro goes
    obtain ⟨c, first, same⟩ := Option.map_eq_some_iff.mp goes
    rcases kind with rfl | rfl <;> rcases ends c first with other | other <;>
      rw [same] at other <;> cases other
  induction w with
  | nil => exact absurd rfl filled
  | cons c w ih =>
    have here := alike c List.mem_cons_self
    have unfolded : wordsOf (c :: (w ++ rest)) =
        if (w ++ rest).head?.map classOf = some k then
          match wordsOf (w ++ rest) with
          | w :: ws => (c :: w) :: ws
          | [] => [[c]]
        else [c] :: wordsOf (w ++ rest) := by
      rw [wordsOf, here]
      rcases kind with rfl | rfl <;> rfl
    rw [List.cons_append, unfolded]
    cases w with
    | nil =>
      rw [List.nil_append, if_neg stops]
    | cons d w =>
      have next : ((d :: w) ++ rest).head?.map classOf = some k := by
        rw [List.cons_append, List.head?_cons, Option.map_some, alike d (by simp)]
      rw [if_pos next, ih (by simp) fun x hx => alike x (List.mem_cons_of_mem c hx)]

theorem scan?_cons {w rest rest' : List Char} {x : Lexeme}
    (words : wordsOf rest = w :: wordsOf rest')
    (known : Lexeme.ofWord? (String.ofList w) = some x) :
    scan? rest = (scan? rest').map (x :: ·) := by
  rw [scan?, words, List.mapM_cons, known, scan?]
  cases List.mapM (fun w => Lexeme.ofWord? (String.ofList w)) (wordsOf rest') <;> rfl

theorem scan?_opening (rest : List Char) :
    scan? ('(' :: rest) = (scan? rest).map (.opening :: ·) :=
  scan?_cons (wordsOf_opening rest) (by decide)

theorem scan?_closing (rest : List Char) :
    scan? (')' :: rest) = (scan? rest).map (.closing :: ·) :=
  scan?_cons (wordsOf_closing rest) (by decide)

theorem scan?_nil : scan? [] = some [] := rfl

theorem ends_nil : Ends [] := fun _ h => by cases h

theorem ends_blank (rest : List Char) : Ends (' ' :: rest) := fun c h => by
  cases h
  exact .inl (by decide)

theorem ends_opening (rest : List Char) : Ends ('(' :: rest) := fun c h => by
  cases h
  exact .inr (by decide)

theorem ends_closing (rest : List Char) : Ends (')' :: rest) := fun c h => by
  cases h
  exact .inr (by decide)

/-- The text has the lexemes, whatever comes behind it. -/
def Scans (cs : List Char) (xs : List Lexeme) : Prop :=
  ∀ rest, Ends rest → scan? (cs ++ rest) = (scan? rest).map (xs ++ ·)

namespace Scans

variable {cs cs' : List Char} {xs xs' : List Lexeme}

theorem whole (h : Scans cs xs) : scan? cs = some xs := by
  have scanned := h [] ends_nil
  rwa [List.append_nil, scan?_nil, Option.map_some, List.append_nil] at scanned

theorem append (h : Scans cs xs) (ends : Ends cs') (h' : Scans cs' xs') :
    Scans (cs ++ cs') (xs ++ xs') := by
  intro rest behind
  have between : Ends (cs' ++ rest) := by
    cases cs' with
    | nil => exact behind
    | cons c cs' => exact ends
  rw [List.append_assoc, h _ between, h' rest behind, Option.map_map]
  congr 1
  funext ys
  exact (List.append_assoc xs xs' ys).symm

theorem blank (h : Scans cs xs) : Scans (' ' :: cs) xs := h

theorem opening (h : Scans cs xs) : Scans ('(' :: cs) (.opening :: xs) := by
  intro rest behind
  rw [List.cons_append, scan?_opening, h rest behind, Option.map_map]
  rfl

theorem closing : Scans [')'] [.closing] := fun rest _ => scan?_closing rest

theorem run {w : String} {k : CharClass} {x : Lexeme} (run : IsRun w.toList k)
    (known : Lexeme.ofWord? w = some x) : Scans w.toList [x] := fun _ ends =>
  scan?_cons (wordsOf_run run ends) (by rw [String.ofList_toList]; exact known)

end Scans

/-! ## Operators, constants and names -/

theorem operator_run (op : BinaryOperator) : ∃ k, IsRun op.spelling.toList k := by
  have alike : op.spelling.toList ≠ [] ∧ (op.spelling.toList.all (classOf · == .word) = true ∨
      op.spelling.toList.all (classOf · == .mark) = true) := by
    cases op <;> decide
  obtain ⟨filled, word | mark⟩ := alike
  · exact ⟨.word, isRun_of_all filled word (.inl rfl)⟩
  · exact ⟨.mark, isRun_of_all filled mark (.inr rfl)⟩

theorem ofWord?_operator (op : BinaryOperator) :
    Lexeme.ofWord? op.spelling = some (.operator op) := by
  cases op <;> decide

/-- A character that no reserved word has: a digit, a dot or a quote. -/
def IsOdd (c : Char) : Prop := c.isDigit = true ∨ c = '.' ∨ c.toNat = 34

instance (c : Char) : Decidable (IsOdd c) := inferInstanceAs (Decidable (_ ∨ _ ∨ _))

theorem reserved_plain {p : String × Lexeme} (h : p ∈ Lexeme.reserved) {c : Char}
    (mem : c ∈ p.1.toList) : ¬IsOdd c := by
  have plain : (Lexeme.reserved.all fun p => p.1.toList.all fun c => !decide (IsOdd c)) = true := by
    decide
  simpa using List.all_eq_true.mp (List.all_eq_true.mp plain p h) c mem

theorem toLower_of_isOdd {c : Char} (odd : IsOdd c) : c.toLower = c := by
  unfold Char.toLower
  refine dif_neg ?_
  rintro ⟨low, high⟩
  rcases odd with digit | rfl | quote
  · simp only [Char.isDigit, Bool.and_eq_true, decide_eq_true_eq] at digit
    exact absurd (UInt32.le_trans low digit.2) (by decide)
  · exact absurd low (by decide)
  · have low : 65 ≤ c.toNat := low
    omega

/-- A word with such a character is not reserved. -/
theorem reserved?_of_isOdd {w : String} {c : Char} (mem : c ∈ w.toList) (odd : IsOdd c) :
    Lexeme.reserved? w = none := by
  refine Option.map_eq_none_iff.mpr (List.find?_eq_none.mpr fun p hp same => ?_)
  refine reserved_plain hp ?_ odd
  rw [eq_of_beq same]
  exact List.mem_map.mpr ⟨c, mem, toLower_of_isOdd odd⟩

theorem ofWord?_const {w : String} {c : Constant} (free : Lexeme.reserved? w = none)
    (decoded : Constant.ofVhdl? w.toList = some c) : Lexeme.ofWord? w = some (.const c) := by
  rw [Lexeme.ofWord?, free]
  simp only [decoded]

theorem classOf_of_isNameChar {c : Char} (h : isNameChar c = true) : classOf c = .word := by
  have blank : c ≠ ' ' := by
    rintro rfl
    revert h
    decide
  have bracket : ¬(c = '(' ∨ c = ')') := by
    rintro (rfl | rfl) <;> revert h <;> decide
  rw [classOf, if_neg blank, if_neg bracket, if_pos (.inl h)]

theorem isNameChar_of_isHexDigit {c : Char} (h : isHexDigit c = true) : isNameChar c = true := by
  simp only [isHexDigit, Bool.or_eq_true, Bool.and_eq_true, decide_eq_true_eq] at h
  simp only [isNameChar, Bool.or_eq_true, isAlpha_iff]
  rcases h with (digit | small) | capital
  · exact .inl (.inr digit)
  · exact .inl (.inl (.inr ⟨small.1, Nat.le_trans small.2 (by decide)⟩))
  · exact .inl (.inl (.inl ⟨capital.1, Nat.le_trans capital.2 (by decide)⟩))

theorem isDigit_of_isBinDigit {c : Char} (h : isBinDigit c = true) : c.isDigit = true := by
  rcases Bool.or_eq_true_iff.mp h with zero | one
  · rw [eq_of_beq zero]
    decide
  · rw [eq_of_beq one]
    decide

theorem isNameChar_of_isDigit {form : ConstForm} {c : Char} (h : form.isDigit c = true) :
    isNameChar c = true := by
  have decimal : c.isDigit = true → isNameChar c = true := fun digit => by simp [isNameChar, digit]
  cases form with
  | int => exact decimal h
  | hexInt | hexVec => exact isNameChar_of_isHexDigit h
  | binInt | binVec => exact decimal (isDigit_of_isBinDigit h)
  | bool => cases h

/-- The marks in front of the digits of a constant and behind them. -/
def marksOf : ConstForm → List Char × List Char
  | .int | .bool => ([], [])
  | .hexInt => (['1', '6', '#'], ['#'])
  | .binInt => (['2', '#'], ['#'])
  | .binVec => ([Char.ofNat 34], [Char.ofNat 34])
  | .hexVec => (['x', Char.ofNat 34], [Char.ofNat 34])

theorem toList_vhdl (c : Constant) :
    c.vhdl.toList = (marksOf c.form).1 ++ c.digits.toList ++ (marksOf c.form).2 := by
  obtain ⟨form, digits⟩ := c
  have pieces : "16#".toList = ['1', '6', '#'] ∧ "2#".toList = ['2', '#'] ∧ "#".toList = ['#'] ∧
      "\"".toList = [Char.ofNat 34] ∧ "x\"".toList = ['x', Char.ofNat 34] := by decide
  obtain ⟨hex, bin, sharp, quote, hexQuote⟩ := pieces
  cases form <;>
    simp only [Constant.vhdl, Constant.text, marksOf, String.toList_append, hex, bin, sharp, quote,
      hexQuote, List.nil_append, List.append_nil]

/-- A constant is what its text says. -/
theorem ofVhdl?_vhdl {c : Constant} (proper : c.Proper) :
    Constant.ofVhdl? c.vhdl.toList = some c := by
  rw [toList_vhdl]
  obtain ⟨form, digits⟩ := c
  have back : String.ofList digits.toList = digits := String.ofList_toList
  have sixteen : "16#".toList = ['1', '6', '#'] := by decide
  have two : "2#".toList = ['2', '#'] := by decide
  cases form with
  | binVec => simp [marksOf, Constant.ofVhdl?, back]
  | hexVec => simp [marksOf, Constant.ofVhdl?, back]
  | hexInt => simp [marksOf, Constant.ofVhdl?, sixteen, back]
  | binInt => simp [marksOf, Constant.ofVhdl?, sixteen, two, back]
  | bool => rcases proper with h | h <;> cases h <;> decide
  | int =>
    obtain ⟨all, filled⟩ := proper
    obtain ⟨d, ds, split⟩ := List.exists_cons_of_ne_nil filled
    have digit : d.isDigit = true := all d (by rw [split]; exact List.mem_cons_self)
    have quote : d.toNat ≠ 34 := by
      intro quote
      rw [Char.toNat_inj.mp (quote.trans (by decide : 34 = (Char.ofNat 34).toNat))] at digit
      cases digit
    have letter : d ≠ 'x' := by
      rintro rfl
      cases digit
    -- a number has no mark of a radix
    have sharp : '#' ∉ digits.toList := fun mem => by cases all _ mem
    have decimal : ∀ mark : List Char, '#' ∈ mark → ¬mark.isPrefixOf (d :: ds) = true := by
      intro mark mem found
      rw [split] at sharp
      exact sharp ((List.isPrefixOf_iff_prefix.mp found).subset mem)
    simp only [marksOf, List.nil_append, List.append_nil, split, Constant.ofVhdl?]
    rw [if_neg quote, if_neg (fun h => letter h.1), if_pos digit,
      if_neg (decimal _ (by rw [sixteen]; decide)), if_neg (decimal _ (by rw [two]; decide)),
      ← split, back]

theorem digits_word {c : Constant} (all : ∀ x ∈ c.digits.toList, c.form.isDigit x = true) :
    ∀ x ∈ c.vhdl.toList, classOf x = .word := by
  have marks : ∀ form, ((marksOf form).1 ++ (marksOf form).2).all (classOf · == .word) = true := by
    intro form
    cases form <;> decide
  have word : ∀ x ∈ (marksOf c.form).1 ++ (marksOf c.form).2, classOf x = .word := fun x hx =>
    eq_of_beq (List.all_eq_true.mp (marks c.form) x hx)
  intro x hx
  rw [toList_vhdl] at hx
  rcases List.mem_append.mp hx with hx | hx
  · rcases List.mem_append.mp hx with hx | hx
    · exact word x (List.mem_append_left _ hx)
    · exact classOf_of_isNameChar (isNameChar_of_isDigit (all x hx))
  · exact word x (List.mem_append_right _ hx)

theorem const_run {c : Constant} (proper : c.Proper) : IsRun c.vhdl.toList .word := by
  obtain ⟨form, digits⟩ := c
  cases form with
  | bool =>
    rcases proper with h | h
    · cases h
      exact isRun_of_all (by decide) (by decide) (.inl rfl)
    · cases h
      exact isRun_of_all (by decide) (by decide) (.inl rfl)
  | int =>
    exact ⟨by rw [toList_vhdl]; simpa [marksOf] using proper.2, digits_word proper.1, .inl rfl⟩
  | hexInt | binInt => exact ⟨by rw [toList_vhdl]; simp [marksOf], digits_word proper.1, .inl rfl⟩
  | binVec | hexVec => exact ⟨by rw [toList_vhdl]; simp [marksOf], digits_word proper, .inl rfl⟩

theorem reserved?_const {c : Constant} (proper : c.Proper) : Lexeme.reserved? c.vhdl = none := by
  have chars := toList_vhdl c
  obtain ⟨form, digits⟩ := c
  cases form with
  | int =>
    obtain ⟨d, ds, split⟩ := List.exists_cons_of_ne_nil proper.2
    have mem : d ∈ digits.toList := by rw [split]; exact List.mem_cons_self
    exact reserved?_of_isOdd (c := d) (by simp [chars, marksOf, mem]) (.inl (proper.1 d mem))
  | hexInt => exact reserved?_of_isOdd (c := '1') (by simp [chars, marksOf]) (by decide)
  | binInt => exact reserved?_of_isOdd (c := '2') (by simp [chars, marksOf]) (by decide)
  | binVec | hexVec =>
    exact reserved?_of_isOdd (c := Char.ofNat 34) (by simp [chars, marksOf]) (by decide)
  | bool => rcases proper with h | h <;> cases h <;> decide

/-! ## Names -/

/-- A name of words is one word, with dots between the parts. -/
theorem toList_name (segments : List String) :
    (String.intercalate "." segments).toList = ['.'].intercalate (segments.map String.toList) := by
  have dot : ".".toList = ['.'] := by decide
  rw [String.toList_intercalate, dot]

theorem mem_intercalate {x : Char} : ∀ {parts : List (List Char)},
    x ∈ ['.'].intercalate parts → x = '.' ∨ ∃ w ∈ parts, x ∈ w := by
  intro parts
  induction parts with
  | nil => intro h; cases h
  | cons w parts ih =>
    intro h
    cases parts with
    | nil => exact .inr ⟨w, List.mem_cons_self, by simpa using h⟩
    | cons v parts =>
      rw [List.intercalate_cons_cons] at h
      rcases List.mem_append.mp h with h | h
      · rcases List.mem_append.mp h with h | h
        · exact .inr ⟨w, List.mem_cons_self, h⟩
        · exact .inl (List.mem_singleton.mp h)
      · rcases ih h with dot | ⟨u, hu, hx⟩
        · exact .inl dot
        · exact .inr ⟨u, List.mem_cons_of_mem w hu, hx⟩

section Names

variable {segments : List String} (filled : segments ≠ []) (names : ∀ s ∈ segments, IsName s)

include names

theorem chars_name : ∀ x ∈ (String.intercalate "." segments).toList,
    isNameChar x = true ∨ x = '.' := by
  intro x hx
  rw [toList_name] at hx
  rcases mem_intercalate hx with dot | ⟨w, hw, hx⟩
  · exact .inr dot
  · obtain ⟨s, hs, rfl⟩ := List.mem_map.mp hw
    exact .inl ((names s hs).chars x hx)

include filled

theorem starts_name : ∃ c rest, (String.intercalate "." segments).toList = c :: rest ∧
    c.isAlpha = true := by
  obtain ⟨s, others, rfl⟩ := List.exists_cons_of_ne_nil filled
  obtain ⟨c, rest, split, letter, -⟩ := (names s List.mem_cons_self).shape
  rw [toList_name, List.map_cons, split]
  cases others with
  | nil => exact ⟨c, rest, by rw [List.map_nil, List.intercalate_singleton], letter⟩
  | cons t others =>
    rw [List.map_cons, List.intercalate_cons_cons, List.append_assoc, List.cons_append]
    exact ⟨c, _, rfl, letter⟩

theorem name_run : IsRun (String.intercalate "." segments).toList .word := by
  obtain ⟨c, rest, split, -⟩ := starts_name filled names
  refine ⟨by rw [split]; exact List.cons_ne_nil c rest, fun x hx => ?_, .inl rfl⟩
  rcases chars_name names x hx with char | rfl
  · exact classOf_of_isNameChar char
  · decide

/-- A name falls into its parts. -/
theorem splitOn_name :
    ((String.intercalate "." segments).toList.splitOn '.').map String.ofList = segments := by
  have parts : ∀ w ∈ segments.map String.toList, '.' ∉ w := by
    intro w hw dot
    obtain ⟨s, hs, rfl⟩ := List.mem_map.mp hw
    cases (names s hs).chars '.' dot
  rw [toList_name, List.splitOn_intercalate '.' parts (by simpa using filled), List.map_map]
  refine (List.map_congr_left fun s _ => ?_).trans (List.map_id segments)
  exact String.ofList_toList

theorem ofVhdl?_name : Constant.ofVhdl? (String.intercalate "." segments).toList = none := by
  obtain ⟨c, rest, split, letter⟩ := starts_name filled names
  have unquoted : ∀ x ∈ (String.intercalate "." segments).toList, x.toNat ≠ 34 := by
    intro x hx quote
    rw [Char.toNat_inj.mp (quote.trans (by decide : 34 = (Char.ofNat 34).toNat))] at hx
    rcases chars_name names _ hx with char | dot
    · cases char
    · revert dot
      decide
  have first : c.toNat ≠ 34 := unquoted c (by rw [split]; exact List.mem_cons_self)
  have second : rest.head?.map Char.toNat ≠ some 34 := by
    intro quote
    obtain ⟨x, hx, quote⟩ := Option.map_eq_some_iff.mp quote
    refine unquoted x ?_ quote
    rw [split]
    exact List.mem_cons_of_mem c (List.mem_of_mem_head? hx)
  have digit : ¬c.isDigit = true := by
    simp only [Char.isDigit, Bool.and_eq_true, decide_eq_true_eq, ge_iff_le,
      UInt32.le_iff_toNat_le]
    have nine : '9'.val.toNat = 57 := by decide
    have above : 65 ≤ c.val.toNat := by
      rcases isAlpha_iff.mp letter with capital | small
      · exact capital.1
      · exact Nat.le_trans (by decide) small.1
    omega
  -- the truth values are reserved in the source
  have truth : ∀ t : String, t = "true" ∨ t = "false" → c :: rest ≠ t.toList := by
    intro t ht same
    have parts := splitOn_name filled names
    rw [split, same] at parts
    rcases ht with rfl | rfl
    · have alone : segments = ["true"] := by rw [← parts]; decide
      have free := (names "true" (by rw [alone]; exact List.mem_cons_self)).free
      revert free
      decide
    · have alone : segments = ["false"] := by rw [← parts]; decide
      have free := (names "false" (by rw [alone]; exact List.mem_cons_self)).free
      revert free
      decide
  rw [split, Constant.ofVhdl?, if_neg first, if_neg (fun h => second h.2), if_neg digit, if_neg]
  rintro (same | same)
  · exact truth "true" (.inl rfl) same
  · exact truth "false" (.inr rfl) same

/-- A name whose parts are not reserved is a name. -/
theorem ofWord?_name (free : AreNames segments) :
    Lexeme.ofWord? (String.intercalate "." segments) = some (.name segments) := by
  have unreserved : Lexeme.reserved? (String.intercalate "." segments) = none := by
    cases segments with
    | nil => exact absurd rfl filled
    | cons s others =>
      cases others with
      | nil =>
        rw [String.intercalate_singleton]
        exact free s List.mem_cons_self
      | cons t others =>
        refine reserved?_of_isOdd (c := '.') ?_ (by decide)
        rw [toList_name, List.map_cons, List.map_cons, List.intercalate_cons_cons]
        simp
  have parts : segments.all isNamePart = true := by
    refine List.all_eq_true.mpr fun s hs => ?_
    obtain ⟨c, rest, split, letter, -⟩ := (names s hs).shape
    have chars := List.all_eq_true.mpr (names s hs).chars
    rw [isNamePart, chars, free s hs, split]
    simpa using letter
  rw [Lexeme.ofWord?, unreserved]
  simp only [ofVhdl?_name filled names]
  rw [splitOn_name filled names, if_pos parts]

end Names

/-! ## Texts of trees -/

/-- The text of an expression, without parentheses that are not in it. -/
def Tree.text : Tree → String
  | name segments => String.intercalate "." segments
  | const c => c.vhdl
  | binary op left right => left.text ++ " " ++ op.spelling ++ " " ++ right.text
  | neg operand => "- " ++ operand.text
  | not operand => "not " ++ operand.text
  | paren inner => "(" ++ inner.text ++ ")"
  | bits target high low =>
    if low.text = high.text then String.intercalate "." target ++ "(" ++ high.text ++ ")"
    else String.intercalate "." target ++ "(" ++ high.text ++ " downto " ++ low.text ++ ")"

/-- All names are names and all constants can be written. -/
def Tree.Lexical : Tree → Prop
  | name segments => segments ≠ [] ∧ ∀ s ∈ segments, IsName s
  | const c => c.Proper
  | binary _ left right => left.Lexical ∧ right.Lexical
  | neg operand | not operand | paren operand => operand.Lexical
  | bits target high low =>
    (target ≠ [] ∧ ∀ s ∈ target, IsName s) ∧ high.Lexical ∧ low.Lexical

/-- Trees that fit have different texts, where the texts have their lexemes. -/
theorem Tree.text_inj {t u : Tree} (ht : Scans t.text.toList t.lexemes)
    (hu : Scans u.text.toList u.lexemes) (fits : t.Fits .logical) (fits' : u.Fits .logical)
    (same : t.text = u.text) : t = u := by
  have lexemes : t.lexemes = u.lexemes := by
    have scanned := ht.whole
    rw [same, hu.whole] at scanned
    exact (Option.some_inj.mp scanned).symm
  have read := readLexemes?_lexemes fits
  rw [lexemes, readLexemes?_lexemes fits'] at read
  exact (Option.some_inj.mp read).symm

theorem pieces_toList : " ".toList = [' '] ∧
    "- ".toList = BinaryOperator.sub.spelling.toList ++ [' '] ∧
    "not ".toList = "not".toList ++ [' '] ∧ "(".toList = ['('] ∧ ")".toList = [')'] ∧
      " downto ".toList = ' ' :: ("downto".toList ++ [' ']) := by decide

theorem scans_operator (op : BinaryOperator) : Scans op.spelling.toList [.operator op] := by
  obtain ⟨k, run⟩ := operator_run op
  exact .run run (ofWord?_operator op)

theorem scans_not : Scans "not".toList [.not] :=
  .run (isRun_of_all (by decide) (by decide) (.inl rfl)) (by decide)

theorem scans_downto : Scans "downto".toList [.downto] :=
  .run (isRun_of_all (by decide) (by decide) (.inl rfl)) (by decide)

/-- The text of a tree that fits has its lexemes. -/
theorem Tree.Fits.scans {t : Tree} {n : Level} (fits : t.Fits n) (lexical : t.Lexical) :
    Scans t.text.toList t.lexemes := by
  obtain ⟨blank, minus, not, opening, closing, downto⟩ := pieces_toList
  induction t generalizing n with
  | name segments =>
    obtain ⟨filled, names⟩ := lexical
    exact .run (name_run filled names) (ofWord?_name filled names fits)
  | const c =>
    exact .run (const_run lexical) (ofWord?_const (reserved?_const lexical) (ofVhdl?_vhdl lexical))
  | binary op left right ihl ihr =>
    have scanl := ihl fits.2.1 lexical.1
    have scanr := ihr fits.2.2 lexical.2
    have scans := scanl.append (ends_blank _)
      ((scans_operator op).append (ends_blank _) scanr.blank).blank
    simpa [text, lexemes, blank] using scans
  | neg operand ih =>
    have scans := (scans_operator .sub).append (ends_blank _) (ih fits.2 lexical).blank
    simpa [text, lexemes, minus] using scans
  | not operand ih =>
    have scans := scans_not.append (ends_blank _) (ih fits.2 lexical).blank
    simpa [text, lexemes, not] using scans
  | paren inner ih =>
    have scans := ((ih fits lexical).append (ends_closing _) .closing).opening
    simpa [text, lexemes, opening, closing] using scans
  | bits target high low ihh ihl =>
    obtain ⟨free, fitsh, fitsl⟩ := fits
    obtain ⟨⟨filled, names⟩, lexh, lexl⟩ := lexical
    have scanh := ihh fitsh lexh
    have scanl := ihl fitsl lexl
    have named : Scans (String.intercalate "." target).toList [.name target] :=
      .run (name_run filled names) (ofWord?_name filled names free)
    by_cases same : low.text = high.text
    · have single : low = high := text_inj scanl scanh fitsl fitsh same
      have scans := named.append (ends_opening _)
        (scanh.append (ends_closing _) .closing).opening
      simpa [text, lexemes, single, opening, closing] using scans
    · have range : low ≠ high := fun h => same (by rw [h])
      have back := scans_downto.append (ends_blank _)
        (scanl.append (ends_closing _) .closing).blank
      have scans := named.append (ends_opening _)
        (scanh.append (ends_blank _) back.blank).opening
      simpa [text, lexemes, same, range, opening, closing, downto] using scans

theorem free_of_reserved {p : String × Lexeme} (h : p ∈ Lexeme.reserved) : p.2.Free := by
  rcases List.mem_append.mp h with h | h
  · simp only [List.mem_cons, List.not_mem_nil, or_false] at h
    rcases h with rfl | rfl | rfl | rfl <;> trivial
  · obtain ⟨op, -, rfl⟩ := List.mem_map.mp h
    trivial

/-- The parts of a name are not reserved. -/
theorem free_of_ofWord? {w : String} {x : Lexeme} (h : Lexeme.ofWord? w = some x) : x.Free := by
  unfold Lexeme.ofWord? at h
  split at h
  · next y found =>
    cases h
    obtain ⟨p, entry, rfl⟩ := Option.map_eq_some_iff.mp found
    exact free_of_reserved (List.mem_of_find?_eq_some entry)
  · split at h
    · cases h
      trivial
    · simp only at h
      split at h
      · next parts =>
        cases h
        intro s hs
        have part := List.all_eq_true.mp parts s hs
        simp only [isNamePart, Bool.and_eq_true, Option.isNone_iff_eq_none] at part
        exact part.2
      · cases h

theorem free_of_scan? {cs : List Char} {xs : List Lexeme} (h : scan? cs = some xs) :
    ∀ x ∈ xs, x.Free := by
  have all : ∀ (ws : List (List Char)) (xs : List Lexeme),
      ws.mapM (fun w => Lexeme.ofWord? (String.ofList w)) = some xs → ∀ x ∈ xs, x.Free := by
    intro ws
    induction ws with
    | nil =>
      intro xs h x hx
      cases h
      cases hx
    | cons w ws ih =>
      intro xs h
      rw [List.mapM_cons] at h
      obtain ⟨y, known, h⟩ := Option.bind_eq_some_iff.mp h
      obtain ⟨ys, later, h⟩ := Option.bind_eq_some_iff.mp h
      cases h
      intro x hx
      rcases List.mem_cons.mp hx with rfl | hx
      · exact free_of_ofWord? known
      · exact ih ys later x hx
  exact all _ xs h

/-- A tree is read back from its text where it fits, and nowhere else. -/
theorem read?_text_iff {t : Tree} (lexical : t.Lexical) :
    read? t.text = some t ↔ t.Fits .logical := by
  constructor
  · intro h
    obtain ⟨xs, scanned, read⟩ := Option.bind_eq_some_iff.mp h
    exact readLexemes?_fits (free_of_scan? scanned) read
  · intro fits
    rw [read?, (fits.scans lexical).whole, Option.bind_some]
    exact readLexemes?_lexemes fits

end Vhdl

/-! ## Rendered expressions -/

def Operator.inVhdl : Operator → Vhdl.BinaryOperator
  | .boolAnd | .wordAnd => .and
  | .boolOr | .wordOr => .or
  | .boolXor | .wordXor => .xor
  | .wordNand => .nand
  | .wordNor => .nor
  | .wordXnor => .xnor
  | .eq => .eq
  | .ne => .ne
  | .lt => .lt
  | .le => .le
  | .gt => .gt
  | .ge => .ge
  | .add => .add
  | .sub => .sub
  | .mul => .mul
  | .div => .div
  | .mod => .mod
  | .pow => .pow

/-- An expression without choices, with the operators of VHDL. -/
def Expr.inVhdl? : Expr → Option Vhdl.Tree
  | ref path => some (.name path.names)
  | const _ value => some (.const value)
  | binary _ op left right => do some (.binary op.inVhdl (← left.inVhdl?) (← right.inVhdl?))
  | unary _ .neg operand => do some (.neg (← operand.inVhdl?))
  | unary _ .not operand | unary _ .bang operand => do some (.not (← operand.inVhdl?))
  | unary _ .paren operand => do some (.paren (← operand.inVhdl?))
  | choice .. => none
  | index _ target bit => do
    let bit ← bit.inVhdl?
    some (.bits target.names bit bit)
  | range _ target high low => do some (.bits target.names (← high.inVhdl?) (← low.inVhdl?))

theorem Path.Lexical.names {p : Path} (h : p.Lexical) :
    p.names ≠ [] ∧ ∀ s ∈ p.names, IsName s := by
  refine ⟨List.cons_ne_nil _ _, fun s hs => ?_⟩
  obtain ⟨segment, mem, rfl⟩ := List.mem_map.mp hs
  exact h segment mem

theorem Operator.vhdl_eq (op : Operator) : op.vhdl = op.inVhdl.spelling := by
  cases op <;> rfl

/-- What an expression with the operators of VHDL has of the expression: its text, and names and
constants that can be written. -/
theorem Expr.inVhdl?_spec {e : Expr} {t : Vhdl.Tree} (h : e.inVhdl? = some t) :
    e.vhdl = t.text ∧ (e.Lexical → t.Lexical) := by
  induction e generalizing t with
  | ref path =>
    cases h
    exact ⟨rfl, Path.Lexical.names⟩
  | const span value =>
    cases h
    exact ⟨rfl, id⟩
  | binary span op left right ihl ihr =>
    obtain ⟨l, hl, h⟩ := Option.bind_eq_some_iff.mp h
    obtain ⟨r, hr, h⟩ := Option.bind_eq_some_iff.mp h
    cases h
    obtain ⟨textl, lexl⟩ := ihl hl
    obtain ⟨textr, lexr⟩ := ihr hr
    refine ⟨?_, fun lexical => ⟨lexl lexical.1, lexr lexical.2⟩⟩
    rw [vhdl, textl, textr, op.vhdl_eq, Vhdl.Tree.text]
  | unary span op operand ih =>
    cases op <;>
    · obtain ⟨u, hu, h⟩ := Option.bind_eq_some_iff.mp h
      cases h
      obtain ⟨text, lexical⟩ := ih hu
      refine ⟨?_, lexical⟩
      rw [vhdl, text]
      rfl
  | choice => cases h
  | index span target bit ih =>
    obtain ⟨u, hu, h⟩ := Option.bind_eq_some_iff.mp h
    cases h
    obtain ⟨text, lex⟩ := ih hu
    refine ⟨?_, fun lexical => ⟨lexical.1.names, lex lexical.2, lex lexical.2⟩⟩
    rw [vhdl, text, Vhdl.Tree.text, if_pos rfl]
    rfl
  | range span target high low ihh ihl =>
    obtain ⟨u, hu, h⟩ := Option.bind_eq_some_iff.mp h
    obtain ⟨v, hv, h⟩ := Option.bind_eq_some_iff.mp h
    cases h
    obtain ⟨texth, lexh⟩ := ihh hu
    obtain ⟨textl, lexl⟩ := ihl hv
    refine ⟨?_, fun lexical => ⟨lexical.1.names, lexh lexical.2.1, lexl lexical.2.2⟩⟩
    rw [vhdl, texth, textl, Vhdl.Tree.text]
    simp only [beq_iff_eq]
    rfl

/-- An expression without choices that was read from a source is read back from its VHDL text, with
the operators of VHDL in its place, exactly where its operators group by the precedence of VHDL and
its names are not reserved. -/
theorem Expr.vhdl_read_iff {c : Cursor} {widths : Widths} {e : Expr} {r : Reading} {t : Vhdl.Tree}
    (h : Expr.parse c widths = (.ok e, r)) (plain : e.inVhdl? = some t) :
    Vhdl.read? e.vhdl = some t ↔ t.Fits .logical := by
  have read := Parse.wholeExpression_faithful (fun t ht => Stream.scan_spelled t ht) h
  obtain ⟨text, lexical⟩ := Expr.inVhdl?_spec plain
  rw [text]
  exact Vhdl.read?_text_iff (lexical read.2.lexical)

/-- A sum with a product in it, in VHDL as in the source. -/
def sumOfProduct : Cursor := .ofFile ⟨0, "", Bytes.ofString "a+b*c", 0⟩

theorem vhdl_read_iff_sumOfProduct :
    ∃ e r t, Expr.parse sumOfProduct [] = (.ok e, r) ∧ e.inVhdl? = some t ∧
      Vhdl.read? e.vhdl = some t := by
  obtain ⟨e, r, parsed, plain⟩ : ∃ e r, Expr.parse sumOfProduct [] = (.ok e, r) ∧
      e.inVhdl? = some (.binary .add (.name ["a"]) (.binary .mul (.name ["b"]) (.name ["c"]))) :=
    Expr.parsed_of_eq (by decide +kernel)
  exact ⟨e, r, _, parsed, plain, (Expr.vhdl_read_iff parsed plain).mpr (by decide)⟩

/-- A sum with a disjunction in it, which is looser in VHDL. -/
def sumOfOr : Cursor := .ofFile ⟨0, "", Bytes.ofString "a or b+c", 0⟩

/-- The sum of the disjunction is read as a disjunction of the sum. -/
theorem sumOfOr_read :
    ∃ e r t t', Expr.parse sumOfOr [] = (.ok e, r) ∧ e.inVhdl? = some t ∧
      Vhdl.read? e.vhdl = some t' ∧ t' ≠ t := by
  obtain ⟨e, r, parsed, trees⟩ : ∃ e r, Expr.parse sumOfOr [] = (.ok e, r) ∧
      (e.inVhdl?, Vhdl.read? e.vhdl) =
        (some (.binary .add (.binary .or (.name ["a"]) (.name ["b"])) (.name ["c"])),
          some (.binary .or (.name ["a"]) (.binary .add (.name ["b"]) (.name ["c"])))) :=
    Expr.parsed_of_eq (by decide +kernel)
  obtain ⟨plain, read⟩ := Prod.ext_iff.mp trees
  exact ⟨e, r, _, _, parsed, plain, read, by decide⟩

end CircuitCompiler
