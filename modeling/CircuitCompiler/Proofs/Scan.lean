import CircuitCompiler.Proofs.Lexeme

/-!
# Scanning a part of a text

One token at a time, then whole streams: what is scanned within the front of a text is what the
front alone gives.

* `Scan.fault_cases`, `Scan.fine_cases`: how a step of the scanner ends;
* `Scan.read_front`: one token;
* `Stream.scan_before`, `Stream.scan_from`: cut before a token, a text falls into two texts whose
  streams are the tokens before and the tokens from there on;
* `Stream.scan_fault_front`: a text that ends behind its first fault keeps the fault.
-/

namespace CircuitCompiler

namespace Scan

/-! ## Tokens -/

/-- A gap takes bytes off the front and stops where no white space or comment starts. -/
theorem gap_split (file pos : Nat) (b : Bytes) :
    ∃ skipped, b = skipped ++ (gap file pos b).rest ∧
      (gap file pos b).pos = pos + skipped.length ∧ trivium (gap file pos b).rest = none := by
  fun_induction gap file pos b with
  | case1 pos b none => exact ⟨[], rfl, rfl, none⟩
  | case2 pos b t found span more ih =>
    obtain ⟨skipped, hb, hpos, stops⟩ := ih
    obtain ⟨behind, split⟩ := trivium_prefix found
    refine ⟨t.text ++ skipped, ?_, ?_, stops⟩
    · rw [List.append_assoc, ← hb, ← split, List.drop_left]
    · show more.pos = _
      rw [hpos, List.length_append]
      omega

theorem gap_front {file pos : Nat} {b x y : Bytes} (hb : b = x ++ y)
    (fits : (gap file pos b).pos ≤ pos + x.length) :
    ∃ rest, gap file pos x = { gap file pos b with rest } ∧ (gap file pos b).rest = rest ++ y := by
  revert x
  fun_induction gap file pos b with
  | case1 pos b none =>
    rintro x rfl _
    refine ⟨x, ?_, rfl⟩
    rw [gap]
    split
    · rfl
    · next found =>
      rw [trivium_none_front none] at found
      cases found
  | case2 pos b t found span more =>
    rename_i ih
    rintro x rfl (fits : more.pos ≤ pos + x.length)
    obtain ⟨skipped, -, hpos, -⟩ :=
      gap_split file (pos + t.text.length) ((x ++ y).drop t.text.length)
    have hpos : more.pos = pos + t.text.length + skipped.length := hpos
    have within : t.text.length ≤ x.length := by omega
    obtain ⟨rest, same, hrest⟩ := ih (List.drop_append_of_le_length within)
      (Nat.le_trans fits (by rw [List.length_drop]; omega))
    refine ⟨rest, ?_, hrest⟩
    rw [gap]
    split
    · next none =>
      rw [trivium_front found within] at none
      cases none
    · next u hu =>
      rw [trivium_front found within] at hu
      cases hu
      rw [same]

/-- The token and the fault that a lexeme makes at a place. -/
def Lexeme.placed (file pos : Nat) (leading : List Trivia) : Lexeme → Token × Option CompileError
  | token kind text value =>
    (⟨kind, ⟨file, pos, pos + text.length⟩, text, value, leading⟩, none)
  | broken text cause faultAt =>
    (⟨.invalid, ⟨file, pos, pos + text.length⟩, text, [], leading⟩,
      some ⟨cause, ⟨file, pos + faultAt, pos + text.length⟩⟩)

theorem read_of_fault (scope : Scope) {file pos : Nat} {b : Bytes} {e : CompileError}
    (h : (gap file pos b).fault = some e) :
    read scope file pos b =
      ⟨.invalid e.span, some e, (gap file pos b).pos, (gap file pos b).rest⟩ := by
  simp only [read, h]

theorem read_of_empty (scope : Scope) {file pos : Nat} {b : Bytes}
    (fine : (gap file pos b).fault = none) (h : (gap file pos b).rest = []) :
    read scope file pos b =
      ⟨.eof (.point file (gap file pos b).pos), none, (gap file pos b).pos, []⟩ := by
  simp only [read, fine, h]

theorem read_of_lexeme (scope : Scope) {file pos : Nat} {b : Bytes} {c : UInt8} {rest : Bytes}
    (fine : (gap file pos b).fault = none) (h : (gap file pos b).rest = c :: rest) :
    read scope file pos b =
      ⟨((lexeme scope c rest).placed file (gap file pos b).pos (gap file pos b).trivia).1,
        ((lexeme scope c rest).placed file (gap file pos b).pos (gap file pos b).trivia).2,
        (gap file pos b).pos + (lexeme scope c rest).text.length,
        (c :: rest).drop (lexeme scope c rest).text.length⟩ := by
  simp only [read, fine, h]
  split <;> next found => simp only [found, Lexeme.placed, Lexeme.text]

/-- How a step of the scanner comes to a fault: in the gap, or in the lexeme behind it. -/
inductive FaultCase (scope : Scope) (file pos : Nat) (b : Bytes) (e : CompileError) : Prop
  | gap (found : (gap file pos b).fault = some e)
      (step : read scope file pos b =
        ⟨.invalid e.span, some e, (gap file pos b).pos, (gap file pos b).rest⟩)
  | lexeme (c : UInt8) (rest text : Bytes) (cause : Cause) (faultAt : Nat)
      (found : lexeme scope c rest = .broken text cause faultAt)
      (place : e = ⟨cause,
        ⟨file, (gap file pos b).pos + faultAt, (gap file pos b).pos + text.length⟩⟩)
      (step : read scope file pos b =
        ⟨⟨.invalid, ⟨file, (gap file pos b).pos, (gap file pos b).pos + text.length⟩, text, [],
          (gap file pos b).trivia⟩, some e, (gap file pos b).pos + text.length,
          (c :: rest).drop text.length⟩)

theorem fault_cases {scope : Scope} {file pos : Nat} {b : Bytes} {e : CompileError}
    (h : (read scope file pos b).fault = some e) : FaultCase scope file pos b e := by
  cases fine : (gap file pos b).fault with
  | some e' =>
    have step := read_of_fault scope fine
    rw [step] at h
    cases h
    exact .gap fine step
  | none =>
    cases more : (gap file pos b).rest with
    | nil =>
      rw [read_of_empty scope fine more] at h
      cases h
    | cons c rest =>
      have step := read_of_lexeme scope fine more
      rw [step] at h
      cases found : lexeme scope c rest with
      | token kind text value =>
        rw [found] at h
        cases h
      | broken text cause faultAt =>
        rw [found] at h step
        cases h
        exact .lexeme c rest text cause faultAt found rfl step

/-- A step of the scanner takes a token: the gap has no fault, and the lexeme behind it is not
broken. -/
structure TokenStep (scope : Scope) (file pos : Nat) (b : Bytes) (c : UInt8) (tail : Bytes)
    (kind : Kind) (text value : Bytes) : Prop where
  fine : (gap file pos b).fault = none
  more : (gap file pos b).rest = c :: tail
  found : lexeme scope c tail = .token kind text value
  step : read scope file pos b =
    ⟨⟨kind, ⟨file, (gap file pos b).pos, (gap file pos b).pos + text.length⟩, text, value,
      (gap file pos b).trivia⟩, none, (gap file pos b).pos + text.length,
      (c :: tail).drop text.length⟩

/-- How a step of the scanner without a fault ends: at the end of the source, or with a token. -/
inductive FineCase (scope : Scope) (file pos : Nat) (b : Bytes) : Prop
  | eof (fine : (gap file pos b).fault = none) (ends : (gap file pos b).rest = [])
      (step : read scope file pos b =
        ⟨.eof (.point file (gap file pos b).pos), none, (gap file pos b).pos, []⟩)
  | token (c : UInt8) (tail : Bytes) (kind : Kind) (text value : Bytes)
      (taken : TokenStep scope file pos b c tail kind text value)

theorem fine_cases {scope : Scope} {file pos : Nat} {b : Bytes}
    (h : (read scope file pos b).fault = none) : FineCase scope file pos b := by
  cases fine : (gap file pos b).fault with
  | some e =>
    rw [read_of_fault scope fine] at h
    cases h
  | none =>
    cases more : (gap file pos b).rest with
    | nil => exact .eof fine more (read_of_empty scope fine more)
    | cons c tail =>
      have step := read_of_lexeme scope fine more
      cases found : lexeme scope c tail with
      | token kind text value =>
        rw [found] at step
        exact .token c tail kind text value ⟨fine, more, found, step⟩
      | broken text cause faultAt =>
        rw [step, found] at h
        cases h

theorem tokenStep_of_read {scope : Scope} {file pos : Nat} {b : Bytes}
    (fine : (read scope file pos b).fault = none)
    (more : (read scope file pos b).token.kind ≠ .eof) :
    ∃ c tail kind text value, TokenStep scope file pos b c tail kind text value := by
  cases fine_cases fine with
  | eof _ _ step =>
    rw [step] at more
    exact absurd rfl more
  | token c tail kind text value taken => exact ⟨c, tail, kind, text, value, taken⟩

/-- A token takes bytes off the front. -/
theorem read_split (scope : Scope) (file pos : Nat) (b : Bytes) :
    ∃ taken, b = taken ++ (read scope file pos b).rest ∧
      (read scope file pos b).pos = pos + taken.length := by
  obtain ⟨skipped, hb, hpos, -⟩ := gap_split file pos b
  cases fine : (gap file pos b).fault with
  | some e =>
    rw [read_of_fault scope fine]
    exact ⟨skipped, hb, hpos⟩
  | none =>
    cases more : (gap file pos b).rest with
    | nil =>
      rw [read_of_empty scope fine more]
      exact ⟨skipped, by rw [← more]; exact hb, hpos⟩
    | cons c rest =>
      obtain ⟨behind, htext⟩ := lexeme_prefix scope c rest
      rw [read_of_lexeme scope fine more]
      refine ⟨skipped ++ (lexeme scope c rest).text, ?_, ?_⟩
      · rw [← htext, List.drop_left, List.append_assoc, htext, ← more]
        exact hb
      · simp only [hpos, List.length_append]
        omega

theorem gap_pos_le_read (scope : Scope) (file pos : Nat) (b : Bytes) :
    (gap file pos b).pos ≤ (read scope file pos b).pos := by
  cases fine : (gap file pos b).fault with
  | some e => exact Nat.le_of_eq (by rw [read_of_fault scope fine])
  | none =>
    cases more : (gap file pos b).rest with
    | nil => exact Nat.le_of_eq (by rw [read_of_empty scope fine more])
    | cons c rest =>
      rw [read_of_lexeme scope fine more]
      exact Nat.le_add_right _ _

/-- A token that ends within the front of a text is the token of the front. -/
theorem read_front {scope : Scope} {file pos : Nat} {x y : Bytes}
    (fits : (read scope file pos (x ++ y)).pos ≤ pos + x.length) :
    ∃ rest, read scope file pos x = { read scope file pos (x ++ y) with rest } ∧
      (read scope file pos (x ++ y)).rest = rest ++ y := by
  obtain ⟨rest, same, hrest⟩ := gap_front rfl (Nat.le_trans (gap_pos_le_read ..) fits)
  obtain ⟨skipped, hx, hpos, -⟩ := gap_split file pos x
  rw [same] at hx hpos
  have size := congrArg List.length hx
  simp only [List.length_append] at hpos size
  cases fine : (gap file pos (x ++ y)).fault with
  | some e =>
    rw [read_of_fault scope fine, read_of_fault scope (by rw [same]; exact fine), same]
    exact ⟨rest, rfl, hrest⟩
  | none =>
    cases rest with
    | nil =>
      cases y with
      | nil =>
        rw [read_of_empty scope fine hrest,
          read_of_empty scope (by rw [same]; exact fine) (by rw [same]), same]
        exact ⟨[], rfl, rfl⟩
      | cons c y =>
        -- the lexeme would start at the end of the front and reach beyond it
        rw [read_of_lexeme scope fine hrest] at fits
        have := lexeme_text_pos scope c y
        simp only [List.length_nil] at fits size
        omega
    | cons c rest =>
      rw [List.cons_append] at hrest
      rw [read_of_lexeme scope fine hrest] at fits ⊢
      rw [read_of_lexeme scope (by rw [same]; exact fine) (by rw [same])]
      have text : (lexeme scope c (rest ++ y)).text.length ≤ (c :: rest).length := by
        simp only at fits
        omega
      rw [lexeme_front text, same]
      exact ⟨_, rfl, List.drop_append_of_le_length text⟩

/-- A gap that ends with the front of a text is all of the front. -/
theorem gap_fills {file pos : Nat} {x y : Bytes}
    (ends : (gap file pos (x ++ y)).pos = pos + x.length) :
    gap file pos x = { gap file pos (x ++ y) with rest := [] } ∧
      (gap file pos (x ++ y)).rest = y := by
  obtain ⟨rest, same, hrest⟩ := gap_front rfl (Nat.le_of_eq ends)
  obtain ⟨skipped, hx, hpos, -⟩ := gap_split file pos x
  rw [same] at hx hpos
  have size := congrArg List.length hx
  simp only [List.length_append] at hpos size
  obtain rfl : rest = [] := List.eq_nil_of_length_eq_zero (by omega)
  exact ⟨same, hrest⟩

theorem gap_behind_gap (file pos : Nat) (b : Bytes) :
    gap file (gap file pos b).pos (gap file pos b).rest =
      ⟨[], none, (gap file pos b).pos, (gap file pos b).rest⟩ := by
  obtain ⟨-, -, -, stops⟩ := gap_split file pos b
  rw [gap]
  split
  · rfl
  · next found =>
    rw [stops] at found
    cases found

/-- From the end of a gap on the scanner reads the same token, with nothing in front of it. -/
theorem read_behind_gap (scope : Scope) {file pos : Nat} {b : Bytes}
    (fine : (gap file pos b).fault = none) :
    read scope file (gap file pos b).pos (gap file pos b).rest =
      { read scope file pos b with token := (read scope file pos b).token.bare } := by
  have again := gap_behind_gap file pos b
  cases more : (gap file pos b).rest with
  | nil =>
    rw [more] at again
    rw [read_of_empty scope fine more, read_of_empty scope (by rw [again]) (by rw [again]), again]
    rfl
  | cons c rest =>
    rw [more] at again
    rw [read_of_lexeme scope fine more, read_of_lexeme scope (by rw [again]) (by rw [again]), again]
    cases lexeme scope c rest <;> rfl

/-- A comment without an end reaches from somewhere in the gap to the end of the text. -/
theorem gap_fault {file pos : Nat} {b : Bytes} {e : CompileError}
    (h : (gap file pos b).fault = some e) :
    pos ≤ e.span.start ∧ e.span.start < e.span.stop ∧ e.span.stop = (gap file pos b).pos := by
  fun_induction gap file pos b with
  | case1 => cases h
  | case2 pos b t found span more ih =>
    have size := trivium_shortens found
    rw [List.length_drop] at size
    simp only at h ⊢
    split at h
    · obtain ⟨from_, order, upTo⟩ := ih h
      exact ⟨by omega, order, upTo⟩
    · next unclosed =>
      cases h
      cases begins_of_trivium found with
      | unclosed none =>
        refine ⟨Nat.le_refl _, by simp [span], ?_⟩
        simp only [span, more, List.drop_length]
        rw [gap]
        rfl
      | _ => exact absurd rfl unclosed

/-- A fault lies where the scanner was and ends where it stops. -/
theorem read_fault {scope : Scope} {file pos : Nat} {b : Bytes} {e : CompileError}
    (h : (read scope file pos b).fault = some e) :
    pos ≤ e.span.start ∧ e.span.start < e.span.stop ∧
      e.span.stop = (read scope file pos b).pos := by
  cases fault_cases h with
  | gap found step =>
    rw [step]
    exact gap_fault found
  | lexeme c rest text cause faultAt found place step =>
    obtain ⟨skipped, -, hpos, -⟩ := gap_split file pos b
    have sound := lexeme_sound scope c rest
    have size := lexeme_text_pos scope c rest
    simp only [found, Lexeme.Sound, Lexeme.text] at sound size
    subst place
    rw [step]
    exact ⟨by simp only; omega, by simp only; omega, rfl⟩

theorem TokenStep.kind_ne_eof {scope : Scope} {file pos : Nat} {b : Bytes} {c : UInt8}
    {tail : Bytes} {kind : Kind} {text value : Bytes}
    (taken : TokenStep scope file pos b c tail kind text value) :
    (read scope file pos b).token.kind ≠ .eof := by
  have sound := lexeme_sound scope c tail
  rw [taken.found] at sound
  rw [taken.step]
  exact sound.1

/-- A token reaches from the end of the gap to where the scanner stops. -/
theorem read_token {scope : Scope} {file pos : Nat} {b : Bytes}
    (fine : (read scope file pos b).fault = none)
    (more : (read scope file pos b).token.kind ≠ .eof) :
    (read scope file pos b).token.span =
        ⟨file, (gap file pos b).pos, (read scope file pos b).pos⟩ ∧
      (read scope file pos b).token.kind ≠ .invalid ∧
      (gap file pos b).fault = none ∧ (gap file pos b).rest ≠ [] := by
  obtain ⟨c, tail, kind, text, value, taken⟩ := tokenStep_of_read fine more
  have sound := lexeme_sound scope c tail
  rw [taken.found] at sound
  refine ⟨by rw [taken.step], ?_, taken.fine, by simp [taken.more]⟩
  rw [taken.step]
  exact sound.2

/-- With a fault comes an invalid token. -/
theorem read_fault_kind {scope : Scope} {file pos : Nat} {b : Bytes} {e : CompileError}
    (h : (read scope file pos b).fault = some e) :
    (read scope file pos b).token.kind = .invalid := by
  cases fault_cases h with
  | gap _ step =>
    rw [step]
    rfl
  | lexeme _ _ _ _ _ _ _ step => rw [step]

/-- A token is not empty. -/
theorem read_gap_lt {scope : Scope} {file pos : Nat} {b : Bytes}
    (fine : (read scope file pos b).fault = none)
    (more : (read scope file pos b).token.kind ≠ .eof) :
    (gap file pos b).pos < (read scope file pos b).pos := by
  obtain ⟨c, tail, kind, text, value, taken⟩ := tokenStep_of_read fine more
  have size := lexeme_text_pos scope c tail
  rw [taken.found] at size
  rw [taken.step]
  exact Nat.lt_add_of_pos_right size

end Scan

namespace Stream
open Scan

theorem scan_of_fault {file pos : Nat} {b : Bytes} {e : CompileError}
    (h : (read .general file pos b).fault = some e) : scan file pos b = ⟨[], .fault e⟩ := by
  rw [scan]
  simp only [h, reduceCtorEq, false_and, dite_false]

theorem scan_of_eof {file pos : Nat} {b : Bytes} (fine : (read .general file pos b).fault = none)
    (h : (read .general file pos b).token.kind = .eof) :
    scan file pos b = ⟨[], .eof (read .general file pos b).token.span⟩ := by
  rw [scan]
  simp only [fine, h, ne_eq, not_true_eq_false, and_false, dite_false]

theorem scan_of_token {file pos : Nat} {b : Bytes}
    (fine : (read .general file pos b).fault = none)
    (more : (read .general file pos b).token.kind ≠ .eof) :
    scan file pos b =
      ⟨(read .general file pos b).token.bare ::
          (scan file (read .general file pos b).pos (read .general file pos b).rest).tokens,
        (scan file (read .general file pos b).pos (read .general file pos b).rest).stop⟩ := by
  rw [scan]
  simp only [fine, more, ne_eq, not_false_eq_true, and_self, dite_true]

/-- Every token of a stream stands within its text and is neither the end nor a fault. -/
theorem scan_token {file pos : Nat} {b : Bytes} {t : Token} (h : t ∈ (scan file pos b).tokens) :
    pos ≤ t.span.start ∧ t.span.start < pos + b.length ∧ t.kind ≠ .eof ∧ t.kind ≠ .invalid := by
  fun_induction scan file pos b with
  | case1 pos b step more behind ih =>
    obtain ⟨fine, more⟩ := more
    obtain ⟨span, valid, -, -⟩ := read_token fine more
    obtain ⟨skipped, -, hgap, -⟩ := gap_split file pos b
    obtain ⟨taken, hb, hpos⟩ := read_split .general file pos b
    have size := congrArg List.length hb
    have shorter := read_shortens fine more
    rw [List.length_append] at size
    rcases List.mem_cons.mp h with rfl | later
    · have inside := read_gap_lt fine more
      refine ⟨?_, ?_, more, valid⟩
      · simp only [Token.bare, step, span, hgap]
        omega
      · simp only [Token.bare, step, span]
        omega
    · obtain ⟨from_, upTo, kinds⟩ := ih later
      simp only [step, hpos] at from_ upTo
      exact ⟨by omega, by omega, kinds⟩
  | case2 => cases h
  | case3 => cases h

/-- The tokens of a stream start one behind the other. -/
theorem scan_sorted (file pos : Nat) (b : Bytes) :
    (scan file pos b).tokens.Pairwise fun s t => s.span.start < t.span.start := by
  fun_induction scan file pos b with
  | case1 pos b step more behind ih =>
    obtain ⟨fine, more⟩ := more
    obtain ⟨span, -, -, -⟩ := read_token fine more
    refine List.pairwise_cons.mpr ⟨fun t later => ?_, ih⟩
    obtain ⟨from_, -⟩ := scan_token later
    have inside := read_gap_lt fine more
    simp only [Token.bare, step, span]
    exact Nat.lt_of_lt_of_le inside from_
  | case2 => exact .nil
  | case3 => exact .nil

/-- The fault that ends a stream lies behind its start and within its text. -/
theorem scan_fault {file pos : Nat} {b : Bytes} {e : CompileError}
    (h : (scan file pos b).stop = .fault e) :
    pos ≤ e.span.start ∧ e.span.start < e.span.stop ∧ e.span.stop ≤ pos + b.length := by
  fun_induction scan file pos b with
  | case1 pos b step more behind ih =>
    obtain ⟨from_, order, upTo⟩ := ih h
    obtain ⟨taken, hb, hpos⟩ := read_split .general file pos b
    have := congrArg List.length hb
    simp only [step, hpos, List.length_append] at from_ upTo this
    exact ⟨by omega, order, by omega⟩
  | case2 pos b step _ e' fault =>
    cases h
    obtain ⟨from_, order, upTo⟩ := read_fault fault
    obtain ⟨taken, hb, hpos⟩ := read_split .general file pos b
    refine ⟨from_, order, ?_⟩
    rw [upTo, hpos]
    have := congrArg List.length hb
    rw [List.length_append] at this
    omega
  | case3 => cases h

/-- The fault that ends a stream lies behind its tokens. -/
theorem scan_token_lt_fault {file pos : Nat} {b : Bytes} {t : Token} {e : CompileError}
    (h : (scan file pos b).stop = .fault e) (ht : t ∈ (scan file pos b).tokens) :
    t.span.start < e.span.start := by
  fun_induction scan file pos b with
  | case1 pos b step more behind ih =>
    rcases List.mem_cons.mp ht with rfl | later
    · obtain ⟨span, -⟩ := read_token more.1 more.2
      obtain ⟨from_, -⟩ := scan_fault h
      have inside := read_gap_lt more.1 more.2
      simp only [Token.bare, step, span]
      exact Nat.lt_of_lt_of_le inside from_
    · exact ih h later
  | case2 => cases ht
  | case3 => cases ht

/-- What the scanner read when a stream has a token. -/
theorem read_of_scan_cons {file pos : Nat} {b : Bytes} {t : Token} {ts : List Token} {stop : Stop}
    (h : scan file pos b = ⟨t :: ts, stop⟩) :
    (read .general file pos b).fault = none ∧ (read .general file pos b).token.kind ≠ .eof ∧
      (read .general file pos b).token.bare = t ∧
      scan file (read .general file pos b).pos (read .general file pos b).rest = ⟨ts, stop⟩ := by
  cases fine : (read .general file pos b).fault with
  | some e =>
    rw [scan_of_fault fine] at h
    cases h
  | none =>
    by_cases more : (read .general file pos b).token.kind = .eof
    · rw [scan_of_eof fine more] at h
      cases h
    · rw [scan_of_token fine more] at h
      simp only [mk.injEq, List.cons.injEq] at h
      obtain ⟨⟨token, tokens⟩, stop⟩ := h
      exact ⟨rfl, more, token, by rw [← tokens, ← stop]⟩

/-- What the scanner read when a stream is nothing but a fault. -/
theorem read_of_scan_fault {file pos : Nat} {b : Bytes} {e : CompileError}
    (h : scan file pos b = ⟨[], .fault e⟩) : (read .general file pos b).fault = some e := by
  cases fine : (read .general file pos b).fault with
  | some e' =>
    rw [scan_of_fault fine] at h
    cases h
    rfl
  | none =>
    by_cases more : (read .general file pos b).token.kind = .eof
    · rw [scan_of_eof fine more] at h
      cases h
    · rw [scan_of_token fine more] at h
      cases h

/-- A stream whose first token ends within the front of a text is that token and the stream of what
is left of the front. -/
theorem scan_front_cons {file pos : Nat} {x y : Bytes} {t : Token} {ts : List Token} {stop : Stop}
    (h : scan file pos (x ++ y) = ⟨t :: ts, stop⟩)
    (fits : (read .general file pos (x ++ y)).pos ≤ pos + x.length) :
    ∃ next rest, next + rest.length = pos + x.length ∧
      scan file next (rest ++ y) = ⟨ts, stop⟩ ∧
      scan file pos x = ⟨t :: (scan file next rest).tokens, (scan file next rest).stop⟩ := by
  obtain ⟨fine, more, token, behind⟩ := read_of_scan_cons h
  obtain ⟨rest, same, hrest⟩ := read_front fits
  obtain ⟨taken, hx, hpos⟩ := read_split .general file pos x
  rw [same] at hx hpos
  refine ⟨(read .general file pos (x ++ y)).pos, rest, ?_, hrest ▸ behind, ?_⟩
  · rw [hpos, hx, List.length_append]
    exact Nat.add_assoc ..
  · rw [scan_of_token (by rw [same]; exact fine) (by rw [same]; exact more), same]
    rw [token]

/-- A text that ends behind its first fault keeps the fault. -/
theorem scan_fault_front {file pos : Nat} {x y : Bytes} {ts : List Token} {e : CompileError}
    (h : scan file pos (x ++ y) = ⟨ts, .fault e⟩)
    (fits : e.span.stop ≤ pos + x.length) : scan file pos x = ⟨ts, .fault e⟩ := by
  -- the tokens come before the fault, so they end within the front, too
  induction ts generalizing pos x with
  | nil =>
    have fault := read_of_scan_fault h
    obtain ⟨-, -, upTo⟩ := read_fault fault
    obtain ⟨rest, same, -⟩ := read_front (upTo ▸ fits)
    exact scan_of_fault (by rw [same]; exact fault)
  | cons t ts ih =>
    obtain ⟨fine, more, -, behind⟩ := read_of_scan_cons h
    obtain ⟨from_, order, -⟩ := scan_fault (congrArg Stream.stop behind)
    obtain ⟨next, rest, size, more, front⟩ := scan_front_cons h (by omega)
    rw [front, ih more (size ▸ fits)]

/-- The first token of a stream and where the scanner stood when it began. -/
theorem scan_head_start {file pos : Nat} {b : Bytes} {t : Token} {ts : List Token} {stop : Stop}
    (h : scan file pos b = ⟨t :: ts, stop⟩) :
    t.span.start = (gap file pos b).pos ∧ (gap file pos b).fault = none := by
  obtain ⟨fine, more, token, -⟩ := read_of_scan_cons h
  obtain ⟨span, -, gapFine, -⟩ := read_token fine more
  refine ⟨?_, gapFine⟩
  rw [← token]
  simp only [Token.bare, span]

/-- The white space and comments in front of a text add nothing to its stream. -/
theorem scan_behind_gap {file pos : Nat} {b : Bytes} (fine : (gap file pos b).fault = none) :
    scan file (gap file pos b).pos (gap file pos b).rest = scan file pos b := by
  have again := read_behind_gap .general fine
  cases fault : (read .general file pos b).fault with
  | some e => rw [scan_of_fault fault, scan_of_fault (by rw [again]; exact fault)]
  | none =>
    by_cases more : (read .general file pos b).token.kind = .eof
    · rw [scan_of_eof fault more,
        scan_of_eof (by rw [again]; exact fault) (by rw [again]; exact more), again]
      rfl
    · rw [scan_of_token fault more,
        scan_of_token (by rw [again]; exact fault) (by rw [again]; exact more), again]
      rfl

/-- A text that ends where a token of the whole text starts has the tokens before that one. -/
theorem scan_before {file pos : Nat} {x y : Bytes} {before : List Token} {t : Token}
    {ts : List Token} {stop : Stop} (h : scan file pos (x ++ y) = ⟨before ++ t :: ts, stop⟩)
    (starts : t.span.start = pos + x.length) :
    scan file pos x = ⟨before, .eof (.point file (pos + x.length))⟩ := by
  induction before generalizing pos x with
  | nil =>
    -- what is left of the front is the gap before the token
    obtain ⟨begin, gapFine⟩ := scan_head_start h
    obtain ⟨same, -⟩ := gap_fills (begin.symm.trans starts)
    have ends := read_of_empty .general (by rw [same]; exact gapFine) (by rw [same])
    rw [scan_of_eof (by rw [ends]) (by rw [ends]; rfl), ends, same]
    simp only [Token.eof, ← begin, starts]
  | cons s before ih =>
    obtain ⟨fine, more, -, behind⟩ := read_of_scan_cons h
    obtain ⟨from_, -⟩ := scan_token (t := t) (by rw [behind]; simp)
    obtain ⟨next, rest, size, more, front⟩ := scan_front_cons h (by omega)
    rw [front, ih more (size ▸ starts), size]

/-- A text that starts where a token of the whole text starts has the tokens from that one on. -/
theorem scan_from {file pos : Nat} {x y : Bytes} {before : List Token} {t : Token}
    {ts : List Token} {stop : Stop} (h : scan file pos (x ++ y) = ⟨before ++ t :: ts, stop⟩)
    (starts : t.span.start = pos + x.length) : scan file (pos + x.length) y = ⟨t :: ts, stop⟩ := by
  induction before generalizing pos x with
  | nil =>
    obtain ⟨begin, gapFine⟩ := scan_head_start h
    obtain ⟨-, hrest⟩ := gap_fills (begin.symm.trans starts)
    have behind := scan_behind_gap gapFine
    rw [hrest, ← begin, starts] at behind
    exact behind.trans h
  | cons s before ih =>
    obtain ⟨fine, more, -, behind⟩ := read_of_scan_cons h
    obtain ⟨from_, -⟩ := scan_token (t := t) (by rw [behind]; simp)
    obtain ⟨next, rest, size, more, -⟩ := scan_front_cons h (by omega)
    exact size ▸ ih more (size ▸ starts)

end Stream
end CircuitCompiler
