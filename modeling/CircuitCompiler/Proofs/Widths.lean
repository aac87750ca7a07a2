import CircuitCompiler.Proofs.Identifiers
import CircuitCompiler.Proofs.PortTypes
import CircuitCompiler.Proofs.Rendering
import CircuitCompiler.Proofs.Shapes
import CircuitCompiler.Proofs.Spaced
import CircuitCompiler.Proofs.TrackedComponent
import Mathlib.Data.Nat.Digits.Lemmas

/-!
# Literals as widths

A number of bits is written in two ways: as the width of a vector port, which the grammar reads,
and as the value of a generic that the width of a port hangs on, which lowering reads. Both make the
same type of it, from the number that the digits stand for, however many there are. Numbers that a
vector cannot have, and literals that are no numbers, are an error of the grammar in the first place
and a single bit in the second.

* `Constant.value?`, `Constant.bits?`: the number that a literal stands for, and the number of bits;
* `Bytes.number_eq`: reading digits from left to right gives the number they stand for;
* `Parse.port_width`, `Decl.givenType_literal`: the two places;
* `Vhdl.emit_widths_agree`: both, and the types of a whole design unit.
-/

namespace CircuitCompiler

/-! ## Numbers -/

/-- What a digit stands for: its place among the digits, small and capital letters alike. -/
def digitValue (c : Char) : Nat := "0123456789abcdef".toList.idxOf c.toLower

def ConstForm.radix? : ConstForm → Option Nat
  | .int => some 10
  | .hexInt => some 16
  | .binInt => some 2
  | .binVec | .hexVec | .bool => none

/-- The number an integer literal stands for; other literals stand for none. -/
def Constant.value? (c : Constant) : Option Nat :=
  c.form.radix?.map fun radix => Nat.ofDigits radix (c.digits.toList.map digitValue).reverse

/-- The number of bits of a vector whose width is the literal. -/
def Constant.bits? (c : Constant) : Option Nat :=
  c.value?.filter fun n => 1 ≤ n ∧ n ≤ 2 ^ 32 - 1

/-- The type of a vector of a number of bits. -/
def Vhdl.vectorType (bits : Nat) : String := "unsigned(" ++ toString (bits - 1) ++ " downto 0)"

/-- The type of a vector whose width is the literal. -/
def Constant.vectorType? (c : Constant) : Option String := c.bits?.map Vhdl.vectorType

theorem Constant.bits?_eq_some_iff {c : Constant} {n : Nat} :
    c.bits? = some n ↔ c.value? = some n ∧ 1 ≤ n ∧ n ≤ 2 ^ 32 - 1 := by
  rw [bits?, Option.filter_eq_some_iff, decide_eq_true_eq]

namespace Bytes

/-- What a byte stands for in a number. -/
def digit (b : UInt8) : Nat :=
  if b ≤ 57 then b.toNat - 48 else if b ≤ 70 then b.toNat - 55 else b.toNat - 87

theorem number_concat (radix : Nat) (digits : Bytes) (b : UInt8) :
    number radix (digits ++ [b]) = number radix digits * radix + digit b := by
  unfold number
  rw [List.foldl_append]
  rfl

theorem digit_byteOf {c : Char} (h : isHexDigit c = true) : digit (byteOf c) = digitValue c := by
  have each : ∀ n < 128, isHexDigit (Char.ofNat n) = true →
      digit (byteOf (Char.ofNat n)) = digitValue (Char.ofNat n) := by decide +kernel
  have small := each c.toNat (ascii_of_isHexDigit c h)
  rw [Char.ofNat_toNat] at small
  exact small h

/-- Digits that are read one by one make the number they stand for. -/
theorem number_eq (radix : Nat) {cs : List Char} (digits : ∀ c ∈ cs, isHexDigit c = true) :
    number radix (cs.map byteOf) = Nat.ofDigits radix (cs.map digitValue).reverse := by
  induction cs using List.reverseRecOn with
  | nil => rfl
  | append_singleton cs c ih =>
    obtain ⟨before, last⟩ := List.forall_mem_append.mp digits
    have here := digit_byteOf (last c List.mem_cons_self)
    rw [List.map_append, List.map_singleton, number_concat, ih before, here, List.map_append,
      List.map_singleton, List.reverse_concat, Nat.ofDigits_cons]
    ring

end Bytes

theorem isHexDigit_of_isDigit {form : ConstForm} {c : Char} (h : form.isDigit c = true) :
    isHexDigit c = true := by
  have decimal : c.isDigit = true → isHexDigit c = true := fun digit => by simp [isHexDigit, digit]
  cases form with
  | int => exact decimal h
  | hexInt | hexVec => exact h
  | binInt | binVec => exact decimal (Vhdl.isDigit_of_isBinDigit h)
  | bool => cases h

theorem Constant.Proper.number {c : Constant} (h : c.Proper) {radix : Nat}
    (known : c.form.radix? = some radix) :
    Bytes.number radix (Bytes.ofString c.digits) =
      Nat.ofDigits radix (c.digits.toList.map digitValue).reverse := by
  have digits : ∀ x ∈ c.digits.toList, isHexDigit x = true := by
    obtain ⟨form, value⟩ := c
    cases form with
    | int | hexInt | binInt => exact fun x hx => isHexDigit_of_isDigit (h.1 x hx)
    | binVec | hexVec | bool => cases known
  have ascii : IsAscii c.digits := fun x hx => ascii_of_isHexDigit x (digits x hx)
  rw [Bytes.ofString_ascii ascii, Bytes.number_eq radix digits]

/-- Lowering reads an integer literal as the number it stands for. -/
theorem Constant.Proper.number? {c : Constant} (h : c.Proper) : c.number? = c.value? := by
  have number := @Constant.Proper.number c h
  obtain ⟨form, value⟩ := c
  cases form with
  | int => exact congrArg some (number rfl)
  | hexInt => exact congrArg some (number rfl)
  | binInt => exact congrArg some (number rfl)
  | binVec | hexVec | bool => rfl

theorem Width.ofNat?_eq (n : Nat) :
    Width.ofNat? n = ((some n).filter fun n => 1 ≤ n ∧ n ≤ 2 ^ 32 - 1).map .literal := by
  have same : (decide (0 < n) && decide (n < 4294967296)) = decide (1 ≤ n ∧ n ≤ 2 ^ 32 - 1) := by
    rw [Bool.eq_iff_iff, Bool.and_eq_true, decide_eq_true_eq, decide_eq_true_eq, decide_eq_true_eq]
    omega
  rw [Width.ofNat?, same, Option.filter]
  split <;> rfl

/-- A vector of a number of bits counts down to zero from the bit below that number. -/
theorem DataType.vhdl_literal {n : Nat} (positive : 1 ≤ n) :
    DataType.vec.vhdl (.literal n) = Vhdl.vectorType n := by
  have below : (n : Int) - 1 = ((n - 1 : Nat) : Int) := by omega
  rw [DataType.vhdl, Width.vhdlRange, below, Vhdl.vectorType, String.append_assoc,
    String.append_assoc, String.append_assoc]
  · rfl
  · simp

/-! ## The width of a port -/

/-- The reading goes on with a vector port whose name is new and whose width is the token. -/
def Reading.AtVectorPort (r : Reading) (t : Token) : Prop :=
  ∃ way vec name opening closing semi rest,
    r.tokens = way :: vec :: name :: opening :: t :: closing :: semi :: rest ∧
      (way.kind = .keyword .input ∨ way.kind = .keyword .output) ∧ vec.kind = .keyword .vec ∧
      name.kind = .ident ∧ r.names.lookup name.name = none ∧ opening.kind = .symbol .lbracket ∧
      closing.kind = .symbol .rbracket ∧ semi.kind = .symbol .semicolon

theorem LiteralForm.radix?_constForm (f : LiteralForm) : f.constForm.radix? = f.radix? := by
  cases f <;> rfl

/-- A literal of the source is the same token in every scope. -/
theorem Token.inScope_of_constForm? {t : Token} {form : ConstForm}
    (literal : t.kind.constForm? = some form) (scope : Scope) : t.inScope scope = t := by
  have flat : t.kind.isScoped = false := by
    cases kind : t.kind with
    | symbol s =>
      rw [kind] at literal
      cases literal
    | _ => rfl
  rw [Token.inScope, Kind.inScope_eq_self scope flat]

/-- The value of a token is ASCII, so it is the bytes of its characters. -/
theorem Token.Spelled.ofString_name {t : Token} (h : t.Spelled) :
    Bytes.ofString t.name = t.value := by
  obtain ⟨-, ascii, -⟩ := Scan.lexes_of_writes h
  exact Bytes.latin_injective (Bytes.latin_ofString ascii)

namespace Parse

variable {α β : Type} {r : Reading} {t : Token} {rest : List Token}

theorem andThen_error {p : Parse α} {f : α → Parse β} {e : CompileError} {r₁ : Reading}
    (h : p r = (.error e, r₁)) : (p >>= f) r = (.error e, r₁) := by
  change (andThen p f) r = _
  simp only [andThen, h]

/-- What a literal is as a width: a number of bits, or an error of the grammar in its place. -/
def literalWidth (t : Token) (form : ConstForm) : Except CompileError Width :=
  match (Constant.mk form t.name).bits? with
  | some n => .ok (.literal n)
  | none =>
    .error ⟨if form.radix?.isSome then .badWidth t.text.latin else .unexpected .width t.describe,
      t.span⟩

/-- A literal is the same token in all scopes. -/
theorem current_of_literal {form : ConstForm} (tokens : r.tokens = t :: rest)
    (literal : t.kind.constForm? = some form) : r.current = t := by
  rw [Reading.current_of_tokens tokens, Token.inScope_of_constForm? literal]

/-- At a token a step fails for the cause given. -/
theorem failHere_cons {cause : Reading → Token → CompileError} (tokens : r.tokens = t :: rest) :
    (failHere cause : Parse α) r = (.error (cause r r.current), r) := by
  unfold failHere
  split
  · next empty _ =>
    rw [tokens] at empty
    cases empty
  · rfl

/-- Only the end of a source is shown elsewhere than where it is. -/
theorem errorSpan_eq (more : t.kind ≠ .eof) : errorSpan r t = t.span := by
  rw [errorSpan, beq_eq_false_iff_ne.mpr more]
  rfl

/-- A literal that is no number is not wanted as a width. -/
theorem unexpected_literal {form : ConstForm} (tokens : r.tokens = t :: rest)
    (literal : t.kind.constForm? = some form) (unsized : form.radix? = none) :
    (unexpected .width : Parse Width) r = (literalWidth t form, r) := by
  have now : r.current = t := current_of_literal tokens literal
  have more : t.kind ≠ .eof := by
    intro kind
    rw [kind] at literal
    cases literal
  have bits : (Constant.mk form t.name).bits? = none := by
    rw [Constant.bits?, Constant.value?, unsized]
    rfl
  have error : literalWidth t form = .error ⟨.unexpected .width t.describe, t.span⟩ := by
    simp [literalWidth, bits, unsized]
  rw [unexpected, failHere_cons tokens, now, errorSpan_eq more, error]

theorem widthValue_literal {form : ConstForm} (tokens : r.tokens = t :: rest)
    (spelled : t.Spelled) (literal : t.kind.constForm? = some form) :
    widthValue r = (literalWidth t form, r) := by
  have now : r.current = t := current_of_literal tokens literal
  obtain ⟨-, proper⟩ := Kind.Writes.constant spelled literal
  have refused : form.radix? = none → (unexpected .width : Parse Width) r =
      (literalWidth t form, r) := unexpected_literal tokens literal
  have peeked : peek r = (.ok t, r) := by rw [peek, now]
  refine (andThen_eq peeked).trans ?_
  cases kind : t.kind with
  | literal f =>
    obtain rfl : f.constForm = form := by
      rw [kind] at literal
      cases f <;> exact Option.some_inj.mp literal
    cases radix : f.radix? with
    | none =>
      simp only [radix]
      exact refused (f.radix?_constForm.trans radix)
    | some base =>
      have known : f.constForm.radix? = some base := f.radix?_constForm.trans radix
      have number : some (Bytes.number base t.value) = (Constant.mk f.constForm t.name).value? := by
        rw [← Token.Spelled.ofString_name spelled, proper.number known, Constant.value?, known]
        rfl
      have width : Width.ofNat? (Bytes.number base t.value) =
          (Constant.mk f.constForm t.name).bits?.map .literal := by
        rw [Width.ofNat?_eq, number, Constant.bits?]
      simp only [radix, width, literalWidth, known]
      cases (Constant.mk f.constForm t.name).bits? <;> rfl
  | keyword w =>
    refine refused ?_
    rw [kind] at literal
    cases w <;> cases literal <;> rfl
  | _ =>
    rw [kind] at literal
    cases literal

/-- A width in brackets. -/
theorem width_run {opening closing : Token} (tokens : r.tokens = opening :: t :: closing :: rest)
    (closes : closing.kind = .symbol .rbracket) {result : Except CompileError Width}
    (value : widthValue (past r opening (t :: closing :: rest)) =
      (result, past r opening (t :: closing :: rest))) :
    ∃ r', width r = (result, r') ∧ ∀ w, result = .ok w → r'.tokens = rest ∧ r'.scope = r.scope := by
  have taken := advance_cons tokens
  cases result with
  | error e =>
    exact ⟨_, (andThen_eq taken).trans (andThen_error value), fun w same => by cases same⟩
  | ok w =>
    have kind : (closing.inScope r.scope).kind = .symbol .rbracket := by
      rw [Token.inScope, closes]
      rfl
    refine ⟨{ r with tokens := rest, last := closing.span }, ?_, fun _ _ => ⟨rfl, rfl⟩⟩
    refine (andThen_eq taken).trans ((andThen_eq value).trans ?_)
    exact (andThen_eq (advance_cons rfl)).trans (andThen_eq (expect_cons rfl kind))

theorem declare_new {name : String} {span : Span} (new : r.names.lookup name = none) :
    declare name span r = (.ok (), { r with names := r.names ++ [(name, span)] }) := by
  unfold declare
  split
  · next first known =>
    rw [new] at known
    cases known
  · rfl

/-- A vector with a new name and a width. -/
theorem typedName_run {vec name opening : Token} {behind : List Token}
    (tokens : r.tokens = vec :: name :: opening :: rest) (vector : vec.kind = .keyword .vec)
    (named : name.kind = .ident) (new : r.names.lookup name.name = none)
    (opens : opening.kind = .symbol .lbracket) {result : Except CompileError Width}
    (value : ∀ r₁ : Reading, r₁.tokens = opening :: rest → ∃ r₂, width r₁ = (result, r₂) ∧
      ∀ w, result = .ok w → r₂.tokens = behind ∧ r₂.scope = r₁.scope) :
    ∃ r', typedName r = (result.map fun w =>
        ⟨name.name, name.span, .vec, w, vec.span.cover r'.last⟩, r') ∧
      ∀ w, result = .ok w → r'.tokens = behind ∧ r'.scope = r.scope := by
  have now : r.current = vec.inScope r.scope := Reading.current_of_tokens tokens
  have type : r.current.kind.dataType? = some .vec := by
    rw [now, Token.inScope, vector]
    rfl
  have ident : (name.inScope r.scope).kind = .ident := by
    rw [Token.inScope, named]
    rfl
  -- the readings behind the type, behind the name and with the name declared
  let r₁ := past r vec (name :: opening :: rest)
  let r₂ := past r₁ name (opening :: rest)
  let r₃ : Reading := { r₂ with names := r.names ++ [(name.name, name.span)] }
  have taken : advance r = (.ok (vec.inScope r.scope), r₁) := advance_cons tokens
  have word : expect .ident .nameAfterType r₁ = (.ok (name.inScope r.scope), r₂) :=
    expect_cons rfl ident
  have fresh : declare name.name name.span r₂ = (.ok (), r₃) := declare_new new
  have bracket : (r₃.current.kind == .symbol .lbracket) = true := by
    rw [Reading.current_of_tokens rfl, Token.inScope, opens]
    rfl
  obtain ⟨r₄, run, behind⟩ := value r₃ rfl
  have optional : optionalWidth r₃ = (result, r₄) := by
    refine (andThen_eq rfl).trans ?_
    rw [if_pos bracket, run]
  have front : typedName r = (optionalWidth >>= fun w => lastSpan >>= fun last =>
      declareType .vec name.name w >>= fun _ =>
        succeed ⟨name.name, name.span, .vec, w, vec.span.cover last⟩) r₃ := by
    refine (andThen_eq rfl).trans ?_
    simp only [type]
    refine (andThen_eq taken).trans ((andThen_eq word).trans ((andThen_eq fresh).trans ?_))
    rw [now]
    rfl
  cases result with
  | error e => exact ⟨r₄, front.trans (andThen_error optional), fun w same => by cases same⟩
  | ok w =>
    refine ⟨{ r₄ with widths := r₄.widths.declare name.name w }, ?_, fun _ _ => behind w rfl⟩
    exact front.trans (andThen_eq optional)

/-- A vector port is declared with what is made of its width. -/
theorem port_run (port_ : r.AtVectorPort t) {result : Except CompileError Width}
    (value : ∀ (r₁ : Reading) (rest : List Token), r₁.tokens = t :: rest →
      widthValue r₁ = (result, r₁)) :
    ∃ f : Width → Decl, (port r).1 = result.map f ∧
      ∀ w, (f w).type = .vec ∧ (f w).width = w := by
  obtain ⟨way, vec, name, opening, closing, semi, rest, tokens, directed, vector, named, new, opens,
    closes, ends⟩ := port_
  obtain ⟨dir, direction⟩ : ∃ dir, r.current.kind.direction? = some dir := by
    rw [Reading.current_of_tokens tokens, Token.inScope]
    rcases directed with kind | kind
    · rw [kind]
      exact ⟨.input, rfl⟩
    · rw [kind]
      exact ⟨.output, rfl⟩
  let r₁ := past r way (vec :: name :: opening :: t :: closing :: semi :: rest)
  have taken : advance r = (.ok (way.inScope r.scope), r₁) := advance_cons tokens
  obtain ⟨r₂, run, behind⟩ := typedName_run (r := r₁) rfl vector named new opens
    fun r₃ tokens => width_run tokens closes (value _ _ rfl)
  have front : port r = (typedName >>= fun d =>
      expect (.symbol .semicolon) .semicolonAfterPort >>= fun _ =>
        succeed { d.decl (.port dir) with span := r.current.span.cover d.span }) r₁ := by
    refine (andThen_eq rfl).trans ?_
    simp only [direction]
    exact andThen_eq taken
  let declared (w : Width) : Declarator :=
    ⟨name.name, name.span, .vec, w, vec.span.cover r₂.last⟩
  let f (w : Width) : Decl :=
    { (declared w).decl (.port dir) with span := r.current.span.cover (declared w).span }
  refine ⟨f, ?_, fun w => ⟨rfl, rfl⟩⟩
  cases result with
  | error e => exact congrArg Prod.fst (front.trans (andThen_error run))
  | ok w =>
    obtain ⟨left, scope⟩ := behind w rfl
    have semicolon : (semi.inScope r₂.scope).kind = .symbol .semicolon := by
      rw [Token.inScope, ends]
      rfl
    have whole : port r = (.ok (f w), past r₂ semi rest) := by
      refine front.trans ((andThen_eq run).trans ?_)
      exact andThen_eq (expect_cons left semicolon)
    rw [whole]
    rfl

/-- A vector port whose width is a literal has the type of a vector of that width, and where a
vector cannot have it the grammar does not admit the port. -/
theorem port_width {form : ConstForm} (port_ : r.AtVectorPort t) (spelled : t.Spelled)
    (literal : t.kind.constForm? = some form) :
    (port r).1.toOption.map Decl.vhdlType = (Constant.mk form t.name).vectorType? ∧
      ∀ e, (port r).1 = .error e → e.cause.kind = .grammar := by
  obtain ⟨f, run, vector⟩ := port_run port_ fun _ _ tokens =>
    widthValue_literal tokens spelled literal
  rw [run, literalWidth, Constant.vectorType?]
  cases bits : (Constant.mk form t.name).bits? with
  | some n =>
    obtain ⟨type, width⟩ := vector (.literal n)
    obtain ⟨-, positive, -⟩ := Constant.bits?_eq_some_iff.mp bits
    refine ⟨congrArg some ?_, fun e same => by cases same⟩
    rw [Decl.vhdlType, type, width, DataType.vhdl_literal positive]
  | none =>
    refine ⟨rfl, fun e same => ?_⟩
    cases same
    show (if form.radix?.isSome then Cause.badWidth _ else .unexpected .width _).kind = .grammar
    split <;> rfl

/-- A literal is bound as it is. -/
theorem setting_literal {form : ConstForm} (tokens : r.tokens = t :: rest)
    (literal : t.kind.constForm? = some form) :
    (setting r).1 = .ok (.literal t.span ⟨form, t.name⟩) := by
  have now : r.current = t := current_of_literal tokens literal
  have run : setting r = (.ok (.literal t.span ⟨form, t.name⟩), past r t rest) := by
    refine (andThen_eq rfl).trans ?_
    simp only [now, literal]
    exact andThen_eq (advance_cons tokens)
  rw [run]

end Parse
/-! ## The width that an instance gives -/

/-- A literal that a generic is bound to is the number of bits it stands for, if a vector can have
it. -/
theorem Setting.width?_literal {c : Constant} (proper : c.Proper) (span : Span) :
    (Setting.literal span c).width? = c.bits?.map .literal := by
  rw [width?, proper.number?, Constant.bits?]
  cases c.value? with
  | none => rfl
  | some n => exact Width.ofNat?_eq n

/-- The signal for a vector port whose width hangs on a generic that is bound to a literal has the
type of a vector of that width, and where a vector cannot have it a single bit. -/
theorem Decl.givenType_literal {d : Decl} {bs : List Binding} {name : String} {span : Span}
    {c : Constant} (proper : c.Proper) (vector : d.type = .vec) (width : d.width = .generic name)
    (bound : Binding.value? bs name = some (.literal span c)) :
    d.givenType bs = c.vectorType?.getD Vhdl.bitType := by
  have given : d.width.forInstance? bs = c.bits?.map .literal := by
    rw [width, Width.forInstance?, bound, Option.bind_some, Setting.width?_literal proper]
  rw [givenType, given, vector, Constant.vectorType?]
  cases bits : c.bits? with
  | none => rfl
  | some n =>
    obtain ⟨-, positive, -⟩ := Constant.bits?_eq_some_iff.mp bits
    exact DataType.vhdl_literal positive

namespace Vhdl

/-! ## The types of a design unit -/

/-- The types that are written: those without bounds, and vectors whose upper bound hangs on a
generic or is one below a number of bits from 1 to 2³² - 1. -/
inductive IsType : String → Prop
  | integer : IsType "integer"
  | natural : IsType "natural"
  | boolean : IsType "boolean"
  | bit : IsType bitType
  | generic {name : String} : IsName name → IsType ("unsigned(" ++ (name ++ " - 1 downto 0") ++ ")")
  | vector {bits : Nat} : 1 ≤ bits → bits ≤ 2 ^ 32 - 1 → IsType (vectorType bits)

/-- The types in a design unit: those of the generics, ports and inner declarations of the
component, of the generics and ports of the components it instantiates, and of the signals that
stand for ports. -/
def unitTypes (c : Component) (l : Lowering) : List String :=
  (((c :: subcomponents l).flatMap fun s => s.generics ++ s.ports) ++ c.innerDecls).map
    Decl.vhdlType ++ l.wires.map (·.type)

theorem isType_vhdl (type : DataType) {w : Width} (lexical : w.Lexical) : IsType (type.vhdl w) := by
  cases type with
  | int => exact .integer
  | uint => exact .natural
  | bool => exact .boolean
  | vec =>
    cases w with
    | scalar => exact .bit
    | generic name => exact .generic lexical
    | literal bits =>
      rw [DataType.vhdl_literal lexical.1]
      exact .vector lexical.1 (Nat.le_pred_of_lt lexical.2)

/-- Values that can be written make widths that can be written. -/
theorem lexical_of_gives {s : Setting} {w : Width} (lexical : s.Lexical) (gives : s.Gives w) :
    w.Lexical := by
  cases gives with
  | name s => exact lexical
  | bits _ positive fits => exact ⟨positive, Nat.lt_succ_of_le fits⟩

theorem isType_givenType {port : Decl} {bs : List Binding} (lexical : port.width.Lexical)
    (words : ∀ b ∈ bs, b.Lexical) : IsType (port.givenType bs) := by
  by_cases generic : ∃ name, port.width = .generic name
  · obtain ⟨name, width⟩ := generic
    by_cases usable : ∃ w, Binding.Gives bs name w
    · obtain ⟨w, gives⟩ := usable
      rw [Decl.givenType_of_gives width gives]
      obtain ⟨value, bound, gives⟩ := gives
      obtain ⟨b, found, rfl⟩ := Option.map_eq_some_iff.mp bound
      have mem : b ∈ bs := List.mem_reverse.mp (List.mem_of_find?_eq_some found)
      exact isType_vhdl _ (lexical_of_gives (words b mem).value gives)
    · have none : ∀ w, ¬Binding.Gives bs name w := fun w gives => usable ⟨w, gives⟩
      rw [Decl.givenType_of_unusable width none]
      exact .bit
  · rw [Decl.givenType_of_fixed fun name width => generic ⟨name, width⟩]
    exact isType_vhdl _ lexical

section Emitted

variable {library : Option Design} {c : Component} {l : Lowering}
  (known : ∀ d, library = some d → ∀ s ∈ d.components, s.Lexical) (lexical : c.Lexical)
  (lowers : lower library c = (.ok (), l))

include known

theorem lexical_of_interface {type : String} {sub : Component}
    (interface : interface? library type = some sub) : sub.Lexical := by
  obtain ⟨d, library, found⟩ := Option.bind_eq_some_iff.mp interface
  exact known d library sub (Design.get?_eq_some_iff.mp found).1

include lowers

theorem lexical_subcomponent {sub : Component} (hsub : sub ∈ subcomponents l) : sub.Lexical := by
  have mem : sub ∈ l.sockets.filterMap (·.sub?) := mem_of_mem_eraseDupsBy hsub
  obtain ⟨s, hs, interface⟩ := List.mem_filterMap.mp mem
  rw [(lower_interface lowers hs).2] at interface
  exact lexical_of_interface known interface

include lexical

theorem isType_wire {w : Wire} (hw : w ∈ l.wires) : IsType w.type := by
  obtain ⟨p, -, typed⟩ := lower_wireType lowers hw
  obtain ⟨s, socket, typed⟩ := Option.bind_eq_some_iff.mp typed
  obtain ⟨i, hi, rfl⟩ := List.mem_map.mp (List.mem_of_find?_eq_some socket)
  unfold Socket.wireType? at typed
  split at typed
  · rw [← Option.some_inj.mp typed]
    exact .bit
  · next sub interface =>
    obtain ⟨port, declared, type⟩ := Option.map_eq_some_iff.mp typed
    rw [← type]
    have hport : port ∈ sub.ports := List.mem_of_find?_eq_some declared
    exact isType_givenType ((lexical_of_interface known interface).ports port hport).width
      (lexical.instances i hi).bindings

/-- All types of a design unit can be written, with bounds that are those of vectors. -/
theorem isType_unitTypes : ∀ type ∈ unitTypes c l, IsType type := by
  have decls : ∀ s ∈ c :: subcomponents l, ∀ p ∈ s.generics ++ s.ports, p.width.Lexical := by
    intro s hs p hp
    have words : s.Lexical := by
      rcases List.mem_cons.mp hs with rfl | hs
      · exact lexical
      · exact lexical_subcomponent known lowers hs
    rcases List.mem_append.mp hp with generic | port
    · exact (words.generics p generic).width
    · exact (words.ports p port).width
  intro type mem
  rcases List.mem_append.mp mem with mem | mem
  · obtain ⟨p, hp, rfl⟩ := List.mem_map.mp mem
    refine isType_vhdl _ ?_
    rcases List.mem_append.mp hp with interface | inner
    · obtain ⟨s, hs, hp⟩ := List.mem_flatMap.mp interface
      exact decls s hs p hp
    · exact (lexical.innerDecls p inner).width
  · obtain ⟨w, hw, rfl⟩ := List.mem_map.mp mem
    exact isType_wire known lexical lowers hw

end Emitted

/-- Where a component is emitted, a literal of the source makes the same type of a vector port that
is declared with it and of the signal that stands for a vector port whose generic is bound to it:
that of a vector, if the literal is an integer from 1 to 2³² - 1. Any other literal is an error of
the grammar in the first place and makes a single bit in the second. All types of the design unit
have bounds that are those of vectors. -/
theorem emit_widths_agree {d : Design} {c : Component} {g g' : Generator} {text : String}
    (sourced : ∀ c ∈ d.components, c.Sourced) (known : c ∈ d.components)
    (library : g.library = some d) (emits : g.emit c = (.ok text, g')) :
    text = renderLines (indentStep g.indent) (unitLines c g'.work) ∧
      (∀ type ∈ unitTypes c g'.work, IsType type) ∧
      ∀ (t : Token) (form : ConstForm), t.Spelled → t.kind.constForm? = some form →
        (∀ r : Reading, r.AtVectorPort t →
          (Parse.port r).1.toOption.map Decl.vhdlType = (Constant.mk form t.name).vectorType? ∧
            ∀ e, (Parse.port r).1 = .error e → e.cause.kind = .grammar) ∧
        (∀ (r : Reading) (rest : List Token), r.tokens = t :: rest →
          (Parse.setting r).1 = .ok (.literal t.span ⟨form, t.name⟩)) ∧
        ∀ p ∈ c.dottedPaths, firstFor? c.dottedPaths (signalName p) = some p →
          ∀ i port, d.LeadsTo c p i port → port.type = .vec →
            ∀ name, port.width = .generic name →
              Binding.value? i.bindings name = some (.literal t.span ⟨form, t.name⟩) →
              (∃ w ∈ g'.work.wires, w.name = signalName p) ∧
                ∀ w ∈ g'.work.wires, w.name = signalName p →
                  w.type = (Constant.mk form t.name).vectorType?.getD bitType := by
  obtain ⟨lowers, written⟩ := lower_of_emit emits
  rw [library] at lowers
  have parsed : ∀ c ∈ d.components, c.Parsed := fun c hc => (sourced c hc).parsed
  have lexical : ∀ c ∈ d.components, c.Lexical := fun c hc => (sourced c hc).lexical
  have types : ∀ type ∈ unitTypes c g'.work, IsType type :=
    isType_unitTypes (fun d' same => Option.some_inj.mp same ▸ lexical) (lexical c known) lowers
  refine ⟨written, types, fun t form spelled literal => ?_⟩
  refine ⟨fun r port_ => Parse.port_width port_ spelled literal,
    fun r rest tokens => Parse.setting_literal tokens literal, ?_⟩
  intro p hp first i port leads vector name width bound
  refine ⟨(exists_wire_iff lowers).mpr ⟨p, hp, rfl⟩, fun w hw named => ?_⟩
  obtain ⟨q, found, typed⟩ := lower_wireType lowers hw
  rw [named, first, Option.some_inj] at found
  rw [← found, wireType?_start parsed known leads, Option.some_inj] at typed
  rw [← typed]
  exact Decl.givenType_literal (Kind.Writes.constant spelled literal).2 vector width bound

/-- The literal that `widthsBound` gives to its instance. -/
def sixteen : Token := { kind := .literal .int, span := ⟨0, 101, 103⟩, text := [49, 54],
                         value := [49, 54] }

/-- The tokens of `input vec d[16];`. -/
def sixteenBits : Reading where
  tokens := [⟨.keyword .input, .zero, [], [], []⟩, ⟨.keyword .vec, .zero, [], [], []⟩,
    ⟨.ident, .zero, [100], [100], []⟩, ⟨.symbol .lbracket, .zero, [], [], []⟩, sixteen,
    ⟨.symbol .rbracket, .zero, [], [], []⟩, ⟨.symbol .semicolon, .zero, [], [], []⟩]
  stop := .eof .zero
  last := .zero

theorem emit_widths_agree_sixteen :
    ∃ text g', (Generator.mk (some widthsDesign) 4 default).emit widthsBound = (.ok text, g') ∧
      (Parse.port sixteenBits).1.toOption.map Decl.vhdlType = some "unsigned(15 downto 0)" ∧
      ∃ w ∈ g'.work.wires, w.name = "r_d" ∧ w.type = "unsigned(15 downto 0)" := by
  obtain ⟨text, g', run⟩ : ∃ text g',
      (Generator.mk (some widthsDesign) 4 default).emit widthsBound = (.ok text, g') :=
    emitted_of_isOk (by decide)
  obtain ⟨-, -, agree⟩ := emit_widths_agree (Design.sourced_of_parse parse_widthsSource)
    (by decide) rfl run
  have spelled : sixteen.Spelled := ⟨by decide, List.all_eq_true.mp (by decide), by decide⟩
  have type : (Constant.mk .int sixteen.name).vectorType? = some "unsigned(15 downto 0)" := by
    decide +kernel
  obtain ⟨declared, -, signals⟩ := agree sixteen .int spelled rfl
  have port_ : sixteenBits.AtVectorPort sixteen :=
    ⟨_, _, _, _, _, _, _, rfl, .inl rfl, rfl, rfl, rfl, rfl, rfl, rfl⟩
  obtain ⟨⟨w, hw, name⟩, typed⟩ := signals ⟨⟨"r", ⟨0, 106, 107⟩⟩, [⟨"d", ⟨0, 108, 109⟩⟩]⟩
    (by decide) (by decide) _ ⟨.port .input, "d", ⟨0, 38, 39⟩, .vec, .generic "W", ⟨0, 28, 42⟩⟩
    ⟨List.mem_singleton.mpr rfl, rfl, _, List.mem_cons_self, rfl, by decide, by decide⟩ rfl "W" rfl
    (by decide)
  refine ⟨text, g', run, (declared sixteenBits port_).1.trans type, w, hw, ?_, ?_⟩
  · rw [name]
    decide
  · rw [typed w hw name, type]
    rfl

end Vhdl
end CircuitCompiler
