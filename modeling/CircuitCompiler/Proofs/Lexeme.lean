import CircuitCompiler.Token.Stream

/-!
# Lexemes at the front of a text

What the scanner makes of the front of a byte string does not depend on what stands behind it, as
long as it stops within the front. The facts are stated for `x ++ y` against `x` alone: a run, a
comment, and each kind of lexeme.

* `Scan.trivium_front`, `Scan.trivium_none_front`: white space and comments;
* `Scan.lexeme_front`: a lexeme that ends within `x` is the lexeme of `x`;
* `Scan.lexeme_prefix`, `Scan.lexeme_sound`: the text of a lexeme stands at the front, and a fault
  lies inside it.
-/

namespace CircuitCompiler

/-- A run that ends within the front of a list is the run of the front. -/
theorem takeWhile_front {α : Type} {p : α → Bool} {x y : List α}
    (fits : ((x ++ y).takeWhile p).length ≤ x.length) :
    x.takeWhile p = (x ++ y).takeWhile p := by
  rw [List.takeWhile_append] at fits ⊢
  split at fits
  · next whole =>
    have none : y.takeWhile p = [] := by
      apply List.eq_nil_of_length_eq_zero
      simp only [List.length_append] at fits
      omega
    rw [if_pos whole, none, List.append_nil]
    exact (List.takeWhile_prefix p).eq_of_length whole
  · next part => rw [if_neg part]

/-- Runs that end where something else begins are the same in the same text. -/
theorem run_append_inj {α : Type} {p : α → Bool} {w v s t : List α} (run : ∀ x ∈ w, p x = true)
    (run' : ∀ x ∈ v, p x = true) (ends : ∀ x ∈ s.head?, p x = false)
    (ends' : ∀ x ∈ t.head?, p x = false) (same : w ++ s = v ++ t) : w = v ∧ s = t := by
  have stops : ∀ rest : List α, (∀ x ∈ rest.head?, p x = false) → rest.takeWhile p = [] := by
    intro rest ends
    cases rest with
    | nil => rfl
    | cons x rest => exact List.takeWhile_cons_of_neg (by simp [ends x rfl])
  have runs : w = v := by
    have front := congrArg (List.takeWhile p) same
    rwa [List.takeWhile_append_of_pos run, List.takeWhile_append_of_pos run', stops s ends,
      stops t ends', List.append_nil, List.append_nil] at front
  subst runs
  exact ⟨rfl, List.append_cancel_left same⟩

/-- A number is written in digits. -/
theorem isDigit_of_mem_number {n : Nat} {c : Char} (h : c ∈ (toString n).toList) :
    c.isDigit = true := by
  have digits : (toString n).toList = Nat.toDigits 10 n := Nat.toList_repr
  exact Nat.isDigit_of_mem_toDigits (by decide) (by decide) (digits ▸ h)

namespace Scan

/-! ## White space and comments -/

theorem toCommentEnd_cons {c : UInt8} {rest : Bytes}
    (other : ∀ tail, c = 42 → rest = 47 :: tail → False) :
    toCommentEnd (c :: rest) = (toCommentEnd rest).map (c :: ·) := by
  rw [toCommentEnd]
  exact other

theorem toCommentEnd_prefix {b text : Bytes} (h : toCommentEnd b = some text) : text <+: b := by
  induction b using toCommentEnd.induct generalizing text with
  | case1 tail =>
    simp only [toCommentEnd, Option.some.injEq] at h
    exact ⟨tail, by rw [← h]; rfl⟩
  | case2 c rest other ih =>
    rw [toCommentEnd_cons other] at h
    obtain ⟨inner, found, rfl⟩ := Option.map_eq_some_iff.mp h
    exact List.cons_prefix_cons.mpr ⟨rfl, ih found⟩
  | case3 => simp [toCommentEnd] at h

theorem toCommentEnd_length {b text : Bytes} (h : toCommentEnd b = some text) :
    2 ≤ text.length := by
  induction b using toCommentEnd.induct generalizing text with
  | case1 tail =>
    simp only [toCommentEnd, Option.some.injEq] at h
    simp [← h]
  | case2 c rest other ih =>
    rw [toCommentEnd_cons other] at h
    obtain ⟨inner, found, rfl⟩ := Option.map_eq_some_iff.mp h
    have := ih found
    simp only [List.length_cons]
    omega
  | case3 => simp [toCommentEnd] at h

theorem toCommentEnd_front {x y text : Bytes} (h : toCommentEnd (x ++ y) = some text)
    (fits : text.length ≤ x.length) : toCommentEnd x = some text := by
  induction x using toCommentEnd.induct generalizing text with
  | case1 tail => simpa [toCommentEnd] using h
  | case2 c rest other ih =>
    have two := toCommentEnd_length h
    have other' : ∀ tail, c = 42 → rest ++ y = 47 :: tail → False := by
      intro tail hc hrest
      cases rest with
      | nil =>
        simp only [List.length_cons, List.length_nil] at fits
        omega
      | cons d rest =>
        injection hrest with hd _
        exact other rest hc (by rw [hd])
    rw [List.cons_append, toCommentEnd_cons other'] at h
    obtain ⟨inner, found, rfl⟩ := Option.map_eq_some_iff.mp h
    rw [toCommentEnd_cons other, ih found (by simpa using fits)]
    rfl
  | case3 =>
    have := toCommentEnd_length h
    simp only [List.length_nil] at fits
    omega

/-- What white space or comment a byte string begins with. -/
inductive Begins : Bytes → Trivium → Prop
  | space {c : UInt8} {rest : Bytes} : isSpace c = true →
      Begins (c :: rest) ⟨.space, c :: rest.takeWhile isSpace, true⟩
  | newline {rest : Bytes} : Begins (10 :: rest) ⟨.newline, 10 :: rest.takeWhile (· == 10), true⟩
  | line {tail : Bytes} :
      Begins (47 :: 47 :: tail) ⟨.lineComment, 47 :: (47 :: tail).takeWhile (· != 10), true⟩
  | block {body text : Bytes} : toCommentEnd body = some text →
      Begins (47 :: 42 :: body) ⟨.blockComment, 47 :: 42 :: text, true⟩
  | unclosed {body : Bytes} : toCommentEnd body = none →
      Begins (47 :: 42 :: body) ⟨.blockComment, 47 :: 42 :: body, false⟩

theorem trivium_of_begins {b : Bytes} {t : Trivium} (h : Begins b t) : trivium b = some t := by
  cases h with
  | space white => simp [trivium, white]
  | newline => simp [trivium, isSpace]
  | line => simp [trivium, isSpace]
  | block found => simp [trivium, isSpace, found]
  | unclosed none => simp [trivium, isSpace, none]

theorem begins_of_trivium {b : Bytes} {t : Trivium} (h : trivium b = some t) : Begins b t := by
  cases b with
  | nil => simp [trivium] at h
  | cons c rest =>
    simp only [trivium] at h
    split at h
    · next white =>
      cases h
      exact .space white
    split at h
    · next white newline =>
      obtain rfl := eq_of_beq newline
      cases h
      exact .newline
    split at h
    · next slash =>
      obtain rfl := eq_of_beq slash
      split at h
      · cases h
        exact .line
      · split at h
        · next found =>
          cases h
          exact .block found
        · next none =>
          cases h
          exact .unclosed none
      · cases h
    · cases h

theorem trivium_prefix {b : Bytes} {t : Trivium} (h : trivium b = some t) : t.text <+: b := by
  cases begins_of_trivium h with
  | space _ => exact List.cons_prefix_cons.mpr ⟨rfl, List.takeWhile_prefix _⟩
  | newline => exact List.cons_prefix_cons.mpr ⟨rfl, List.takeWhile_prefix _⟩
  | line => exact List.cons_prefix_cons.mpr ⟨rfl, List.takeWhile_prefix _⟩
  | block found =>
    have text := toCommentEnd_prefix found
    exact List.cons_prefix_cons.mpr ⟨rfl, List.cons_prefix_cons.mpr ⟨rfl, text⟩⟩
  | unclosed _ => exact List.prefix_refl _

theorem trivium_front {x y : Bytes} {t : Trivium} (h : trivium (x ++ y) = some t)
    (fits : t.text.length ≤ x.length) : trivium x = some t := by
  obtain ⟨b, hb⟩ : ∃ b, b = x ++ y := ⟨_, rfl⟩
  rw [← hb] at h
  apply trivium_of_begins
  -- the text has the bytes that decide the case, so they all stand in `x`
  cases begins_of_trivium h with
  | space white =>
    obtain ⟨c, x, rfl⟩ := List.exists_cons_of_length_pos (Nat.lt_of_lt_of_le (by simp) fits)
    simp only [List.cons_append, List.cons.injEq] at hb
    obtain ⟨rfl, rfl⟩ := hb
    rw [← takeWhile_front (by simpa using fits)]
    exact .space white
  | newline =>
    obtain ⟨c, x, rfl⟩ := List.exists_cons_of_length_pos (Nat.lt_of_lt_of_le (by simp) fits)
    simp only [List.cons_append, List.cons.injEq] at hb
    obtain ⟨rfl, rfl⟩ := hb
    rw [← takeWhile_front (by simpa using fits)]
    exact .newline
  | line =>
    obtain ⟨c, d, x, rfl⟩ : ∃ c d x', x = c :: d :: x' := by
      match x, fits with
      | c :: d :: x', _ => exact ⟨c, d, x', rfl⟩
    simp only [List.cons_append, List.cons.injEq] at hb
    obtain ⟨rfl, rfl, rfl⟩ := hb
    rw [← List.cons_append, ← takeWhile_front (by simpa using fits)]
    exact .line
  | block found =>
    obtain ⟨c, d, x, rfl⟩ : ∃ c d x', x = c :: d :: x' := by
      match x, fits with
      | c :: d :: x', _ => exact ⟨c, d, x', rfl⟩
    simp only [List.cons_append, List.cons.injEq] at hb
    obtain ⟨rfl, rfl, rfl⟩ := hb
    exact .block (toCommentEnd_front found (by simpa using fits))
  | unclosed none =>
    -- an unclosed comment takes all bytes there are
    have whole : y = [] := by
      apply List.eq_nil_of_length_eq_zero
      have := congrArg List.length hb
      simp only [List.length_append, List.length_cons] at this fits
      omega
    rw [whole, List.append_nil] at hb
    rw [← hb]
    exact .unclosed none

theorem trivium_none_front {x y : Bytes} (h : trivium (x ++ y) = none) : trivium x = none := by
  cases hx : trivium x with
  | none => rfl
  | some t =>
    have : ∃ u, trivium (x ++ y) = some u := by
      cases begins_of_trivium hx with
      | space white => exact ⟨_, trivium_of_begins (.space white)⟩
      | newline => exact ⟨_, trivium_of_begins .newline⟩
      | line => exact ⟨_, trivium_of_begins .line⟩
      | @block body _ _ | @unclosed body _ =>
        -- more bytes may close the comment or leave it open
        cases found : toCommentEnd (body ++ y) with
        | some _ => exact ⟨_, trivium_of_begins (.block found)⟩
        | none => exact ⟨_, trivium_of_begins (.unclosed found)⟩
    rw [h] at this
    simp at this

/-! ## Lexemes -/

theorem word_text (b : UInt8) (rest : Bytes) :
    (word b rest).text = b :: rest.takeWhile isNameByte := by
  simp only [word]
  split <;> rfl

theorem word_front {b : UInt8} {x y : Bytes}
    (fits : (word b (x ++ y)).text.length ≤ (b :: x).length) : word b x = word b (x ++ y) := by
  rw [word_text] at fits
  simp only [word, takeWhile_front (Nat.le_of_succ_le_succ fits)]

theorem vector_opening_le (form : LiteralForm) (isDigit : UInt8 → Bool) (opening rest : Bytes) :
    opening.length ≤ (vector form isDigit opening rest).text.length := by
  simp only [vector]
  repeat' split
  all_goals
    simp only [Lexeme.text, List.length_append]
    omega

theorem vector_front {form : LiteralForm} {isDigit : UInt8 → Bool} {opening x y : Bytes}
    (fits : (vector form isDigit opening (x ++ y)).text.length ≤ opening.length + x.length) :
    vector form isDigit opening x = vector form isDigit opening (x ++ y) := by
  have within : ((x ++ y).takeWhile isDigit).length ≤ x.length := by
    revert fits
    simp only [vector]
    repeat' split
    all_goals
      simp only [Lexeme.text, List.length_append, List.length_cons, List.length_nil]
      omega
  have digits := takeWhile_front within
  simp only [vector, digits] at fits ⊢
  rw [List.drop_append_of_le_length within] at fits ⊢
  cases hx : x.drop ((x ++ y).takeWhile isDigit).length with
  | cons c rest => rfl
  | nil =>
    -- the digits reach the end of the front: a quote behind them would not fit
    have all := List.drop_eq_nil_iff.mp hx
    rw [hx] at fits
    cases y with
    | nil => rfl
    | cons c rest =>
      simp only [List.nil_append] at fits ⊢
      split
      · next quote =>
        simp only [if_pos quote, Lexeme.text, List.length_append, List.length_singleton] at fits
        omega
      · next quote =>
        split
        · rfl
        · next newline =>
          simp only [if_neg quote, if_neg newline, Lexeme.text, List.length_append,
            List.length_singleton] at fits
          omega

theorem number_text (b : Bytes) :
    (number b).text = (radix b).2.2 ++ (b.drop (radix b).2.2.length).takeWhile (radix b).2.1 ++
      ((b.drop (radix b).2.2.length).drop ((b.drop (radix b).2.2.length).takeWhile
        (radix b).2.1).length).takeWhile isNameByte := by
  simp only [number]
  split <;> rfl

theorem radix_front {x y : Bytes} (fits : (radix (x ++ y)).2.2.length ≤ x.length) :
    radix x = radix (x ++ y) := by
  match x with
  | [] =>
    simp only [List.nil_append] at fits ⊢
    revert fits
    unfold radix
    split <;> simp
  | [c] =>
    revert fits
    simp only [radix, List.cons_append]
    split <;> simp
  | c :: d :: x =>
    simp only [radix, List.cons_append]
    split <;> split <;> simp_all

/-- Two runs behind each other that end within the front of a list. -/
theorem runs_front {p q : UInt8 → Bool} {x y : Bytes}
    (fits : ((x ++ y).takeWhile p).length +
      (((x ++ y).drop ((x ++ y).takeWhile p).length).takeWhile q).length ≤ x.length) :
    x.takeWhile p = (x ++ y).takeWhile p ∧
      (x.drop ((x ++ y).takeWhile p).length).takeWhile q =
        ((x ++ y).drop ((x ++ y).takeWhile p).length).takeWhile q := by
  have first := takeWhile_front (Nat.le_trans (Nat.le_add_right _ _) fits)
  have within : ((x ++ y).takeWhile p).length ≤ x.length := by omega
  rw [List.drop_append_of_le_length within] at fits ⊢
  refine ⟨first, takeWhile_front ?_⟩
  rw [List.length_drop]
  omega

theorem number_front {x y : Bytes} (fits : (number (x ++ y)).text.length ≤ x.length) :
    number x = number (x ++ y) := by
  rw [number_text] at fits
  simp only [List.length_append] at fits
  have same : radix x = radix (x ++ y) := radix_front (by omega)
  rcases hr : radix x with ⟨form, isDigit, mark⟩
  simp only [← same, hr] at fits
  have within : mark.length ≤ x.length := by omega
  rw [List.drop_append_of_le_length within] at fits
  obtain ⟨digits, glued⟩ := runs_front (p := isDigit) (q := isNameByte)
    (x := x.drop mark.length) (y := y) (by rw [List.length_drop]; omega)
  simp only [number, ← same, hr]
  rw [List.drop_append_of_le_length within, digits, glued]

theorem leadingPair_front {scope : Scope} {b : UInt8} {x y : Bytes}
    (fits : x = [] → leadingPair scope b y = none) :
    leadingPair scope b x = leadingPair scope b (x ++ y) := by
  cases x with
  | nil => exact (fits rfl).symm
  | cons c x => rfl

theorem punctuation_front {scope : Scope} {b : UInt8} {x y : Bytes}
    (fits : (punctuation scope b (x ++ y)).text.length ≤ (b :: x).length) :
    punctuation scope b x = punctuation scope b (x ++ y) := by
  have pair : leadingPair scope b x = leadingPair scope b (x ++ y) := by
    refine leadingPair_front fun empty => ?_
    subst empty
    cases found : leadingPair scope b y with
    | none => rfl
    | some s => simp [punctuation, found, Lexeme.text] at fits
  simp only [punctuation, pair] at fits ⊢
  split
  · rfl
  · next none =>
    split
    · rfl
    · next other =>
      rw [none, other] at fits
      rw [takeWhile_front (by simpa [Lexeme.text] using fits)]

theorem lexeme_front {scope : Scope} {b : UInt8} {x y : Bytes}
    (fits : (lexeme scope b (x ++ y)).text.length ≤ (b :: x).length) :
    lexeme scope b x = lexeme scope b (x ++ y) := by
  unfold lexeme at fits ⊢
  by_cases hex : (b == 120 && (x ++ y).head? == some 34) = true
  · rw [if_pos hex] at fits ⊢
    cases x with
    | nil =>
      have long := Nat.le_trans (vector_opening_le _ _ _ _) fits
      simp at long
    | cons c x =>
      rw [if_pos (by simpa using hex)]
      refine vector_front (Nat.le_trans fits ?_)
      simp only [List.length_cons, List.length_nil, List.drop_succ_cons, List.drop_zero]
      omega
  · have hex' : ¬(b == 120 && x.head? == some 34) = true := by
      cases x with
      | nil => simp
      | cons c x => simpa using hex
    rw [if_neg hex] at fits ⊢
    rw [if_neg hex']
    repeat' split at fits
    · next letter =>
      rw [if_pos letter, if_pos letter]
      exact word_front fits
    · next letter digit =>
      rw [if_neg letter, if_pos digit, if_neg letter, if_pos digit]
      exact number_front fits
    · next letter digit quote =>
      simp only [if_neg letter, if_neg digit, if_pos quote]
      exact vector_front (by simpa [Nat.add_comm] using fits)
    · next letter digit quote =>
      simp only [if_neg letter, if_neg digit, if_neg quote]
      exact punctuation_front fits

theorem word_prefix (b : UInt8) (rest : Bytes) : (word b rest).text <+: b :: rest := by
  rw [word_text]
  exact List.cons_prefix_cons.mpr ⟨rfl, List.takeWhile_prefix _⟩

theorem drop_of_split {front behind whole : Bytes} (split : front ++ behind = whole) :
    whole.drop front.length = behind :=
  (congrArg (List.drop front.length) split.symm).trans List.drop_left

theorem vector_prefix (form : LiteralForm) (isDigit : UInt8 → Bool) (opening rest : Bytes) :
    (vector form isDigit opening rest).text <+: opening ++ rest := by
  obtain ⟨behind, split⟩ := List.takeWhile_prefix isDigit (l := rest)
  have short : opening ++ rest.takeWhile isDigit <+: opening ++ rest :=
    (List.prefix_append_right_inj _).mpr (List.takeWhile_prefix _)
  simp only [vector, drop_of_split split]
  split
  · exact short
  · next c more =>
    have long : opening ++ rest.takeWhile isDigit ++ [c] <+: opening ++ rest :=
      ⟨more, by rw [List.append_assoc, List.append_assoc, List.singleton_append, split]⟩
    split
    · exact long
    split
    · exact short
    · exact long

theorem radix_prefix (b : Bytes) : (radix b).2.2 <+: b := by
  unfold radix
  split
  · next tail => exact ⟨tail, rfl⟩
  · next tail => exact ⟨tail, rfl⟩
  · exact List.nil_prefix

theorem number_prefix (b : Bytes) : (number b).text <+: b := by
  rw [number_text]
  obtain ⟨body, hbody⟩ := radix_prefix b
  obtain ⟨behind, hbehind⟩ := List.takeWhile_prefix (radix b).2.1 (l := body)
  obtain ⟨tail, htail⟩ := List.takeWhile_prefix isNameByte (l := behind)
  rw [drop_of_split hbody, drop_of_split hbehind]
  exact ⟨tail, by rw [List.append_assoc, htail, List.append_assoc, hbehind, hbody]⟩

theorem punctuation_prefix (scope : Scope) (b : UInt8) (rest : Bytes) :
    (punctuation scope b rest).text <+: b :: rest := by
  simp only [punctuation]
  split
  · next s b1 pair =>
    cases rest with
    | nil => cases pair
    | cons c rest =>
      obtain ⟨_, _, same⟩ := Option.map_eq_some_iff.mp pair
      cases same
      exact ⟨rest, rfl⟩
  · split
    · exact ⟨rest, rfl⟩
    · exact List.cons_prefix_cons.mpr ⟨rfl, List.takeWhile_prefix _⟩

/-- The text of a lexeme is what stands at the front. -/
theorem lexeme_prefix (scope : Scope) (b : UInt8) (rest : Bytes) :
    (lexeme scope b rest).text <+: b :: rest := by
  unfold lexeme
  split
  · next hex =>
    cases rest with
    | nil => simp at hex
    | cons c rest =>
      obtain rfl : c = 34 := by simpa using (Bool.and_eq_true_iff.mp hex).2
      exact vector_prefix _ _ [b, 34] rest
  split
  · exact word_prefix b rest
  split
  · exact number_prefix (b :: rest)
  split
  · exact vector_prefix _ _ [b] rest
  · exact punctuation_prefix scope b rest

/-- What every lexeme keeps to: a token is neither the end nor a fault, and a fault starts inside
the text. -/
def Lexeme.Sound : Lexeme → Prop
  | token kind _ _ => kind ≠ .eof ∧ kind ≠ .invalid
  | broken text _ faultAt => faultAt = 0 ∨ faultAt < text.length

theorem vector_sound (form : LiteralForm) (isDigit : UInt8 → Bool) (opening rest : Bytes) :
    (vector form isDigit opening rest).Sound := by
  simp only [vector]
  repeat' split
  all_goals simp [Lexeme.Sound]

theorem lexeme_sound (scope : Scope) (b : UInt8) (rest : Bytes) :
    (lexeme scope b rest).Sound := by
  unfold lexeme
  split
  · exact vector_sound ..
  split
  · simp only [word]
    split <;> simp [Lexeme.Sound]
  split
  · simp only [number]
    split <;> simp [Lexeme.Sound]
  split
  · exact vector_sound ..
  · simp only [punctuation]
    repeat' split
    all_goals simp [Lexeme.Sound]

end Scan
end CircuitCompiler
