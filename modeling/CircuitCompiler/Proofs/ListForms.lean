import CircuitCompiler.Expr.ListForm
import CircuitCompiler.Proofs.Acceptance
import CircuitCompiler.Proofs.Lexeme
import CircuitCompiler.Proofs.Rendering

/-!
# List forms tell expressions apart

A list form is a word, or a head with forms behind it in parentheses. As no word has a blank or a
parenthesis in it, a form is read off its text, whatever the forms stand for. Heads, names and
constants then tell the nodes of an expression apart: operators that share a spelling differ in
the number of their operands, and a single bit of a vector from a range in the number of bounds.

* `ListForm.text_append_inj`: a form at the front of a text;
* `Expr.form_eq_iff`: expressions of one form;
* `Expr.listForm_eq_iff`: parsed expressions of one list form.
-/

namespace CircuitCompiler

/-! ## Forms -/

/-- A word, or a head with forms behind it. -/
inductive ListForm where
  | word (w : String)
  | group (head : String) (parts : List ListForm)

namespace ListForm

mutual

/-- The form as it is written. -/
def text : ListForm → String
  | word w => w
  | group head parts => "(" ++ head ++ spaced parts ++ ")"

/-- Forms as they are written behind a head. -/
def spaced : List ListForm → String
  | [] => ""
  | x :: rest => " " ++ x.text ++ spaced rest

end

/-- Whether a word may have the character: it is no blank and no parenthesis. -/
def isInner (c : Char) : Bool := !(c == ' ' || c == '(' || c == ')')

/-- A word that a form is made of. -/
structure IsWord (w : String) : Prop where
  filled : w.toList ≠ []
  inner : ∀ c ∈ w.toList, isInner c = true

mutual

/-- All words of the form can be told from what stands around them. -/
def Clean : ListForm → Prop
  | word w => IsWord w
  | group head parts => IsWord head ∧ AllClean parts

/-- All forms are clean. -/
def AllClean : List ListForm → Prop
  | [] => True
  | x :: rest => x.Clean ∧ AllClean rest

end

/-- No word goes on here. -/
def Stops (rest : List Char) : Prop := ∀ c ∈ rest.head?, isInner c = false

theorem IsWord.append_inj {w v : String} (hw : IsWord w) (hv : IsWord v) {s t : List Char}
    (hs : Stops s) (ht : Stops t) (same : w.toList ++ s = v.toList ++ t) : w = v ∧ s = t := by
  obtain ⟨words, rest⟩ := run_append_inj hw.inner hv.inner hs ht same
  exact ⟨String.toList_inj.mp words, rest⟩

theorem toList_group (head : String) (parts : List ListForm) :
    (group head parts).text.toList = '(' :: (head.toList ++ ((spaced parts).toList ++ [')'])) := by
  have opening : "(".toList = ['('] := by decide
  have closing : ")".toList = [')'] := by decide
  simp only [text, String.toList_append, opening, closing, List.append_assoc,
    List.cons_append, List.nil_append]

theorem toList_spaced (x : ListForm) (rest : List ListForm) :
    (spaced (x :: rest)).toList = ' ' :: (x.text.toList ++ (spaced rest).toList) := by
  have blank : " ".toList = [' '] := by decide
  simp only [spaced, String.toList_append, blank, List.cons_append, List.nil_append]

theorem stops_spaced (parts : List ListForm) (rest : List Char) :
    Stops ((spaced parts).toList ++ ')' :: rest) := by
  cases parts with
  | nil =>
    intro c first
    obtain rfl : ')' = c := Option.some_inj.mp first
    decide
  | cons x parts =>
    rw [toList_spaced]
    intro c first
    obtain rfl : ' ' = c := Option.some_inj.mp first
    decide

/-- A word does not begin as a group does. -/
theorem IsWord.not_opening {w : String} (h : IsWord w) {s t : List Char} :
    w.toList ++ s ≠ '(' :: t := by
  intro same
  obtain ⟨c, rest, split⟩ := List.exists_cons_of_ne_nil h.filled
  have inner := h.inner c (by rw [split]; exact List.mem_cons_self)
  rw [split, List.cons_append] at same
  rw [(List.cons_eq_cons.mp same).1] at inner
  revert inner
  decide

mutual

/-- A form at the front of a text is read off it. -/
theorem text_append_inj : ∀ {x y : ListForm}, x.Clean → y.Clean → ∀ {s t : List Char}, Stops s →
    Stops t → x.text.toList ++ s = y.text.toList ++ t → x = y ∧ s = t
  | word w, word v, hw, hv, s, t, hs, ht, same => by
    obtain ⟨rfl, rest⟩ := IsWord.append_inj hw hv hs ht same
    exact ⟨rfl, rest⟩
  | word w, group head parts, hw, _, s, t, _, _, same => by
    rw [toList_group] at same
    exact absurd same (IsWord.not_opening hw)
  | group head parts, word v, _, hv, s, t, _, _, same => by
    rw [toList_group] at same
    exact absurd same.symm (IsWord.not_opening hv)
  | group head parts, group head' parts', ⟨hh, hp⟩, ⟨hh', hp'⟩, s, t, _, _, same => by
    simp only [toList_group, List.cons_append, List.append_assoc, List.nil_append,
      List.cons.injEq, true_and] at same
    obtain ⟨rfl, behind⟩ := hh.append_inj hh' (stops_spaced _ _) (stops_spaced _ _) same
    obtain ⟨rfl, rest⟩ := spaced_append_inj hp hp' behind
    exact ⟨rfl, rest⟩

/-- Forms in front of a closing parenthesis are read off the text. -/
theorem spaced_append_inj : ∀ {xs ys : List ListForm}, AllClean xs → AllClean ys →
    ∀ {s t : List Char}, (spaced xs).toList ++ ')' :: s = (spaced ys).toList ++ ')' :: t →
      xs = ys ∧ s = t
  | [], [], _, _, s, t, same => ⟨rfl, (List.cons_eq_cons.mp same).2⟩
  | [], y :: ys, _, _, s, t, same => by
    rw [toList_spaced] at same
    exact absurd (List.cons_eq_cons.mp same).1 (by decide)
  | x :: xs, [], _, _, s, t, same => by
    rw [toList_spaced] at same
    exact absurd (List.cons_eq_cons.mp same).1 (by decide)
  | x :: xs, y :: ys, ⟨hx, hxs⟩, ⟨hy, hys⟩, s, t, same => by
    simp only [toList_spaced, List.cons_append, List.append_assoc, List.cons.injEq, true_and]
      at same
    obtain ⟨rfl, behind⟩ := text_append_inj hx hy (stops_spaced _ _) (stops_spaced _ _) same
    obtain ⟨rfl, rest⟩ := spaced_append_inj hxs hys behind
    exact ⟨rfl, rest⟩

end

/-- Clean forms with one text are one form. -/
theorem text_inj {x y : ListForm} (hx : x.Clean) (hy : y.Clean) (same : x.text = y.text) :
    x = y := by
  have stops : Stops [] := fun _ h => by cases h
  exact (text_append_inj hx hy stops stops (by rw [same])).1

end ListForm

/-! ## Words -/

open ListForm

theorem ListForm.isInner_of_isNameChar {c : Char} (h : isNameChar c = true) :
    isInner c = true := by
  by_contra outer
  simp only [isInner, Bool.not_eq_true', Bool.not_eq_false, Bool.or_eq_true, beq_iff_eq] at outer
  rcases outer with (rfl | rfl) | rfl <;> revert h <;> decide

/-- A constant is written with letters, digits and quotes. -/
theorem Constant.Proper.chars {c : Constant} (h : c.Proper) :
    ∀ x ∈ c.text.toList, isNameChar x = true ∨ x.toNat = 34 := by
  have digits : (∀ x ∈ c.digits.toList, c.form.isDigit x = true) →
      ∀ x ∈ c.digits.toList, isNameChar x = true ∨ x.toNat = 34 := fun all x hx =>
    .inl (Vhdl.isNameChar_of_isDigit (all x hx))
  have fixed : ∀ s : String, (s.toList.all fun x => isNameChar x || x.toNat == 34) = true →
      ∀ x ∈ s.toList, isNameChar x = true ∨ x.toNat = 34 := by
    intro s all x hx
    simpa using List.all_eq_true.mp all x hx
  have hex := fixed "0x" (by decide)
  have bin := fixed "0b" (by decide)
  have quote := fixed "\"" (by decide)
  have hexQuote := fixed "x\"" (by decide)
  obtain ⟨form, value⟩ := c
  cases form with
  | int => exact digits h.1
  | hexInt =>
    simp only [Constant.text, String.toList_append, List.forall_mem_append]
    exact ⟨hex, digits h.1⟩
  | binInt =>
    simp only [Constant.text, String.toList_append, List.forall_mem_append]
    exact ⟨bin, digits h.1⟩
  | binVec =>
    simp only [Constant.text, String.toList_append, List.forall_mem_append]
    exact ⟨⟨quote, digits h⟩, quote⟩
  | hexVec =>
    simp only [Constant.text, String.toList_append, List.forall_mem_append]
    exact ⟨⟨hexQuote, digits h⟩, quote⟩
  | bool =>
    have word : value = "true" ∨ value = "false" := h
    rcases word with rfl | rfl
    · exact fixed "true" (by decide)
    · exact fixed "false" (by decide)

theorem Constant.Proper.filled {c : Constant} (h : c.Proper) : c.text.toList ≠ [] := by
  obtain ⟨form, value⟩ := c
  cases form with
  | int => exact h.2
  | bool =>
    rcases h with word | word <;>
    · show value.toList ≠ []
      rw [show value = _ from word]
      decide
  | _ => simp [Constant.text]

theorem Constant.Proper.isWord {c : Constant} (h : c.Proper) : IsWord c.text := by
  refine ⟨h.filled, fun x hx => ?_⟩
  rcases h.chars x hx with char | quote
  · exact isInner_of_isNameChar char
  · rw [Char.toNat_inj.mp (quote.trans (by decide : 34 = (Char.ofNat 34).toNat))]
    decide

theorem Path.Lexical.isWord {p : Path} (h : p.Lexical) : IsWord p.text := by
  obtain ⟨filled, names⟩ := h.names
  refine ⟨?_, fun x hx => ?_⟩
  · obtain ⟨c, rest, split, -⟩ := Vhdl.starts_name filled names
    rw [Path.text, split]
    exact List.cons_ne_nil c rest
  · rcases Vhdl.chars_name names x hx with char | rfl
    · exact isInner_of_isNameChar char
    · decide

/-- Constants are told apart by their texts. -/
theorem Constant.Proper.text_inj {c d : Constant} (hc : c.Proper) (hd : d.Proper)
    (same : c.text = d.text) : c = d := by
  obtain ⟨k, form, writes⟩ := Constant.kind_writes hc
  obtain ⟨k', form', writes'⟩ := Constant.kind_writes hd
  rw [same] at writes
  obtain ⟨kinds, digits⟩ := Stream.writes_unique writes writes'
  have forms : some c.form = some d.form := by
    rw [← form, ← form', ← Parse.constForm?_inScope k .general, kinds,
      Parse.constForm?_inScope]
  obtain ⟨form, value⟩ := c
  exact Constant.mk.injEq .. ▸ ⟨Option.some_inj.mp forms, digits⟩

/-- Paths are told apart by their texts, up to places. -/
theorem Path.Lexical.text_inj {p q : Path} (hp : p.Lexical) (hq : q.Lexical)
    (same : p.text = q.text) : p.names = q.names := by
  obtain ⟨filled, names⟩ := hp.names
  obtain ⟨filled', names'⟩ := hq.names
  calc p.names = (p.text.toList.splitOn '.').map String.ofList :=
        (Vhdl.splitOn_name filled names).symm
    _ = q.names := by rw [same, Path.text, Vhdl.splitOn_name filled' names']

/-- No path is written as a constant is. -/
theorem Path.Lexical.text_ne {p : Path} {c : Constant} (hp : p.Lexical) (hc : c.Proper) :
    p.text ≠ c.text := by
  intro same
  cases tail : p.tail with
  | nil =>
    -- a single name is a token of another kind
    have name : p.text = p.head.name := by
      rw [Path.text, Path.names, Path.segments, tail]
      exact String.intercalate_singleton
    have writes : Kind.ident.Writes c.text c.text :=
      ⟨rfl, by rw [← same, name]; exact hp p.head List.mem_cons_self⟩
    obtain ⟨k, form, writes'⟩ := Constant.kind_writes hc
    obtain ⟨kinds, -⟩ := Stream.writes_unique writes writes'
    rw [← Parse.constForm?_inScope k .general, ← kinds] at form
    cases form
  | cons s rest =>
    -- and no constant has a dot
    have dot : '.' ∈ p.text.toList := by
      rw [Path.text, Vhdl.toList_name, Path.names, Path.segments, tail]
      simp [List.intercalate_cons_cons]
    rcases hc.chars '.' (same ▸ dot) with char | quote
    · revert char
      decide
    · revert quote
      decide

/-! ## Expressions -/

/-- The head of a form with a unary operator. -/
def UnaryOperator.head : UnaryOperator → String
  | .paren => "paren"
  | op => op.spelling

namespace Expr

/-- The list form of an expression, before it is written. -/
def form : Expr → ListForm
  | ref path => .word path.text
  | const _ value => .word value.text
  | binary _ op left right => .group op.spelling [left.form, right.form]
  | unary _ op operand => .group op.head [operand.form]
  | choice _ cond yes no => .group "?" [cond.form, yes.form, no.form]
  | index _ target bit => .group "splice" [.word target.text, bit.form]
  | range _ target high low => .group "splice" [.word target.text, high.form, low.form]

theorem text_form (e : Expr) : e.form.text = e.listForm := by
  induction e with
  | ref | const => rfl
  | binary s op left right ihl ihr =>
    simp only [form, ListForm.text, ListForm.spaced, ihl, ihr, listForm, String.append_assoc,
      String.append_empty]
  | unary s op operand ih =>
    have unfolded :
        (unary s op operand).listForm = "(" ++ op.head ++ " " ++ operand.listForm ++ ")" := by
      cases op <;> rfl
    rw [unfolded]
    simp only [form, ListForm.text, ListForm.spaced, ih, String.append_assoc, String.append_empty]
  | choice s cond yes no ihc ihy ihn =>
    simp only [form, ListForm.text, ListForm.spaced, ihc, ihy, ihn, listForm, String.append_assoc,
      String.append_empty]
    rfl
  | index s target bit ih =>
    simp only [form, ListForm.text, ListForm.spaced, ih, listForm, String.append_assoc,
      String.append_empty]
    rfl
  | range s target high low ihh ihl =>
    simp only [form, ListForm.text, ListForm.spaced, ihh, ihl, listForm, String.append_assoc,
      String.append_empty]
    rfl

/-- An expression without its places. -/
def plain (e : Expr) : Expr := (Relocation.erased none).expr e

theorem form_plain (e : Expr) : e.plain.form = e.form := by
  unfold plain
  induction e with
  | ref p => rw [Relocation.expr, form, Relocation.path_text, form]
  | const => rfl
  | binary s op left right ihl ihr => rw [Relocation.expr, form, ihl, ihr, form]
  | unary s op operand ih => rw [Relocation.expr, form, ih, form]
  | choice s cond yes no ihc ihy ihn => rw [Relocation.expr, form, ihc, ihy, ihn, form]
  | index s target bit ih => rw [Relocation.expr, form, Relocation.path_text, ih, form]
  | range s target high low ihh ihl =>
    rw [Relocation.expr, form, Relocation.path_text, ihh, ihl, form]

/-- Forms of expressions with names and constants that can be written are clean. -/
theorem clean_form {e : Expr} (h : e.Lexical) : e.form.Clean := by
  have word : ∀ w : String, (w.toList ≠ [] ∧ w.toList.all isInner = true) → IsWord w :=
    fun w ⟨filled, inner⟩ => ⟨filled, List.all_eq_true.mp inner⟩
  induction e with
  | ref p => exact Path.Lexical.isWord h
  | const s value => exact Constant.Proper.isWord h
  | binary s op left right ihl ihr =>
    exact ⟨word _ (by cases op <;> decide), ihl h.1, ihr h.2, trivial⟩
  | unary s op operand ih => exact ⟨word _ (by cases op <;> decide), ih h, trivial⟩
  | choice s cond yes no ihc ihy ihn =>
    exact ⟨word _ (by decide), ihc h.1, ihy h.2.1, ihn h.2.2, trivial⟩
  | index s target bit ih =>
    exact ⟨word _ (by decide), Path.Lexical.isWord h.1, ih h.2, trivial⟩
  | range s target high low ihh ihl =>
    exact ⟨word _ (by decide), Path.Lexical.isWord h.1, ihh h.2.1, ihl h.2.2, trivial⟩

end Expr

theorem Operator.spelling_inj {op op' : Operator} (same : op.spelling = op'.spelling) :
    op = op' := by
  revert same
  cases op <;> cases op' <;> decide

theorem UnaryOperator.head_inj {op op' : UnaryOperator} (same : op.head = op'.head) :
    op = op' := by
  revert same
  cases op <;> cases op' <;> decide

theorem Operator.spelling_special (op : Operator) : op.spelling ≠ "?" ∧ op.spelling ≠ "splice" := by
  cases op <;> decide

theorem Relocation.path_erased {p q : Path} (same : p.names = q.names) :
    (erased none).path p = (erased none).path q := by
  have names : ∀ ss : List Segment,
      ss.map (erased none).segment = (ss.map (·.name)).map fun n => ⟨n, .zero⟩ := by
    intro ss
    rw [List.map_map]
    rfl
  have segments := names p.segments
  rw [show p.segments.map (·.name) = q.segments.map (·.name) from same, ← names] at segments
  obtain ⟨head, tail⟩ := List.cons_eq_cons.mp segments
  exact Path.mk.injEq .. ▸ ⟨head, tail⟩

namespace Expr

/-- Expressions have one form if and only if they differ in places only. -/
theorem form_eq_iff {e e' : Expr} (h : e.Lexical) (h' : e'.Lexical) :
    e.form = e'.form ↔ e.plain = e'.plain := by
  refine ⟨fun same => ?_, fun same => by rw [← e.form_plain, same, e'.form_plain]⟩
  unfold plain
  induction e generalizing e' with
  | ref p =>
    cases e' with
    | ref q =>
      have names := Path.Lexical.text_inj h h' (ListForm.word.inj same)
      rw [Relocation.expr, Relocation.expr, Relocation.path_erased names]
    | const s' value' => exact absurd (ListForm.word.inj same) (Path.Lexical.text_ne h h')
    | _ => cases same
  | const s value =>
    cases e' with
    | ref q => exact absurd (ListForm.word.inj same).symm (Path.Lexical.text_ne h' h)
    | const s' value' => rw [Constant.Proper.text_inj h h' (ListForm.word.inj same)]; rfl
    | _ => cases same
  | binary s op left right ihl ihr =>
    cases e' with
    | binary s' op' left' right' =>
      simp only [form, ListForm.group.injEq, List.cons.injEq, and_true] at same
      obtain ⟨spelling, forml, formr⟩ := same
      rw [Relocation.expr, ihl h.1 h'.1 forml, ihr h.2 h'.2 formr, Operator.spelling_inj spelling]
      rfl
    | index => simp [form, op.spelling_special] at same
    | _ => simp [form] at same
  | unary s op operand ih =>
    cases e' with
    | unary s' op' operand' =>
      simp only [form, ListForm.group.injEq, List.cons.injEq, and_true] at same
      obtain ⟨head, forms⟩ := same
      have lexical : operand'.Lexical := h'
      rw [Relocation.expr, ih h lexical forms, UnaryOperator.head_inj head]
      rfl
    | _ => simp [form] at same
  | choice s cond yes no ihc ihy ihn =>
    cases e' with
    | choice s' cond' yes' no' =>
      simp only [form, ListForm.group.injEq, List.cons.injEq, and_true, true_and] at same
      obtain ⟨formc, formy, formn⟩ := same
      rw [Relocation.expr, ihc h.1 h'.1 formc, ihy h.2.1 h'.2.1 formy, ihn h.2.2 h'.2.2 formn]
      rfl
    | _ => simp [form] at same
  | index s target bit ih =>
    cases e' with
    | index s' target' bit' =>
      simp only [form, ListForm.group.injEq, List.cons.injEq, and_true, true_and] at same
      have names := Path.Lexical.text_inj h.1 h'.1 (ListForm.word.inj same.1)
      rw [Relocation.expr, Relocation.path_erased names, ih h.2 h'.2 same.2]
      rfl
    | binary s' op' => simp [form, op'.spelling_special.2.symm] at same
    | _ => simp [form] at same
  | range s target high low ihh ihl =>
    cases e' with
    | range s' target' high' low' =>
      simp only [form, ListForm.group.injEq, List.cons.injEq, and_true, true_and] at same
      obtain ⟨text, formh, forml⟩ := same
      have names := Path.Lexical.text_inj h.1 h'.1 (ListForm.word.inj text)
      rw [Relocation.expr, Relocation.path_erased names, ihh h.2.1 h'.2.1 formh,
        ihl h.2.2 h'.2.2 forml]
      rfl
    | _ => simp [form] at same

/-- Two parsed expressions have one list form if and only if they differ in places only. -/
theorem listForm_eq_iff {c c' : Cursor} {widths widths' : Widths} {e e' : Expr} {r r' : Reading}
    (h : Expr.parse c widths = (.ok e, r)) (h' : Expr.parse c' widths' = (.ok e', r')) :
    e.listForm = e'.listForm ↔ e.plain = e'.plain := by
  have lexical : e.Lexical :=
    (Parse.wholeExpression_faithful (fun _ ht => Stream.scan_spelled _ ht) h).2.lexical
  have lexical' : e'.Lexical :=
    (Parse.wholeExpression_faithful (fun _ ht => Stream.scan_spelled _ ht) h').2.lexical
  rw [← e.text_form, ← e'.text_form, ← form_eq_iff lexical lexical']
  exact ⟨text_inj (clean_form lexical) (clean_form lexical'), congrArg text⟩

/-- What `differenceBelow` says, in a line of its own for each operand. -/
def differenceSpread : Cursor := .ofFile ⟨1, "", Bytes.ofString "a\n- b\n< c", 0⟩

theorem listForm_eq_iff_differenceSpread :
    ∃ e r e' r', Expr.parse differenceBelow [] = (.ok e, r) ∧
      Expr.parse differenceSpread [] = (.ok e', r') ∧ e.listForm = "(< (- a b) c)" ∧
      e.plain = e'.plain := by
  obtain ⟨e, r, parsed, form⟩ : ∃ e r, Expr.parse differenceBelow [] = (.ok e, r) ∧
      e.listForm = "(< (- a b) c)" := parsed_of_eq (by decide +kernel)
  obtain ⟨e', r', parsed', form'⟩ : ∃ e r, Expr.parse differenceSpread [] = (.ok e, r) ∧
      e.listForm = "(< (- a b) c)" := parsed_of_eq (by decide +kernel)
  exact ⟨e, r, e', r', parsed, parsed', form,
    (listForm_eq_iff parsed parsed').mp (form.trans form'.symm)⟩

end Expr
end CircuitCompiler
