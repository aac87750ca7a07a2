import CircuitCompiler.Proofs.Spelling
import CircuitCompiler.Proofs.Tracking

/-!
# What a parsed expression says about its source

An expression that was read spells the tokens it was read from, in their order, and its operators
group as the levels of the grammar demand.

* `Expr.texts`: the tokens of an expression in source order;
* `Level`, `Expr.Fits`: the levels, from the loosest to the tightest, and the trees in which every
  operand is at a level that its operator admits;
* `Parse.Takes`: what a step of the grammar takes off the front of the tokens;
* `Expr.parse_faithful`: a whole expression.
-/

namespace CircuitCompiler

/-! ## The tokens of an expression -/

/-- The names of a path with the dots between them. -/
def Path.texts (p : Path) : List String := p.head.name :: p.tail.flatMap fun s => [".", s.name]

/-- The tokens that an expression is written with. -/
def Expr.texts : Expr → List String
  | ref path => path.texts
  | const _ value => [value.text]
  | binary _ op left right => left.texts ++ op.spelling :: right.texts
  | unary _ .paren operand => "(" :: operand.texts ++ [")"]
  | unary _ op operand => op.spelling :: operand.texts
  | choice _ cond yes no => cond.texts ++ "?" :: yes.texts ++ ":" :: no.texts
  | index _ target bit => target.texts ++ "[" :: bit.texts ++ ["]"]
  | range _ target high low => target.texts ++ "[" :: high.texts ++ ":" :: low.texts ++ ["]"]

/-! ## Levels -/

/-- The levels of the grammar, from the loosest to the tightest. A negation in front of a relation
is looser than it, one in front of a power is as tight as a sign. -/
inductive Level where
  | choice
  | boolean
  | leading
  | relation
  | sum
  | product
  | sign
  | power
  | atom
  deriving DecidableEq, Repr

namespace Level

def rank : Level → Nat
  | choice => 0
  | boolean => 1
  | leading => 2
  | relation => 3
  | sum => 4
  | product => 5
  | sign => 6
  | power => 7
  | atom => 8

instance : LE Level := ⟨fun m n => m.rank ≤ n.rank⟩

instance (m n : Level) : Decidable (m ≤ n) := inferInstanceAs (Decidable (m.rank ≤ n.rank))

def tighter : Level → Level
  | choice => boolean
  | boolean => leading
  | leading => relation
  | relation => sum
  | sum => product
  | product => sign
  | sign => power
  | power | atom => atom

theorem le_trans {l m n : Level} (h : l ≤ m) (h' : m ≤ n) : l ≤ n := Nat.le_trans h h'

theorem le_tighter (n : Level) : n ≤ n.tighter := by
  cases n <;> decide

end Level

def Operator.level : Operator → Level
  | .boolAnd | .boolOr | .boolXor => .boolean
  | .lt | .gt | .le | .ge | .eq | .ne => .relation
  | .add | .sub | .wordOr | .wordNor => .sum
  | .mul | .div | .mod | .wordAnd | .wordNand | .wordXor | .wordXnor => .product
  | .pow => .power

/-- The loosest level of a left operand: that of the operator itself, which groups to the left. A
relation is not chained. -/
def Operator.leftLevel (op : Operator) : Level :=
  if op.level = .relation then .sum else op.level

/-- The expression may stand where the grammar wants a level: it is at that level or a tighter one,
and so are the operands of all its nodes where their operators want them. -/
def Expr.Fits : Expr → Level → Prop
  | ref _, _ => True
  | const .., _ => True
  | binary _ op left right, n =>
    n ≤ op.level ∧ left.Fits op.leftLevel ∧ right.Fits op.level.tighter
  | unary _ .paren operand, _ => operand.Fits .choice
  | unary _ .neg operand, n => n ≤ .sign ∧ operand.Fits .power
  | unary _ .bang operand, n => n ≤ .leading ∧ operand.Fits .relation
  | unary _ .not operand, n =>
    (n ≤ .leading ∧ operand.Fits .relation) ∨ (n ≤ .sign ∧ operand.Fits .power)
  | choice _ cond yes no, n =>
    n ≤ .choice ∧ cond.Fits .boolean ∧ yes.Fits .choice ∧ no.Fits .choice
  | index _ _ bit, _ => bit.Fits .choice
  | range _ _ high low, _ => high.Fits .choice ∧ low.Fits .choice

theorem Expr.Fits.mono {e : Expr} {m n : Level} (h : e.Fits n) (le : m ≤ n) : e.Fits m := by
  cases e with
  | ref | const | index | range => exact h
  | binary s op left right => exact ⟨Level.le_trans le h.1, h.2⟩
  | choice s cond yes no => exact ⟨Level.le_trans le h.1, h.2⟩
  | unary s op operand =>
    cases op with
    | paren => exact h
    | neg => exact ⟨Level.le_trans le h.1, h.2⟩
    | bang => exact ⟨Level.le_trans le h.1, h.2⟩
    | not =>
      rcases h with ⟨at_, fits⟩ | ⟨at_, fits⟩
      · exact .inl ⟨Level.le_trans le at_, fits⟩
      · exact .inr ⟨Level.le_trans le at_, fits⟩

/-! ## Names and constants -/

/-- All segments are names. -/
def Path.Lexical (p : Path) : Prop := ∀ s ∈ p.segments, IsName s.name

/-- All names are names and all constants can be written. -/
def Expr.Lexical : Expr → Prop
  | ref path => path.Lexical
  | const _ value => value.Proper
  | binary _ _ left right => left.Lexical ∧ right.Lexical
  | unary _ _ operand => operand.Lexical
  | choice _ cond yes no => cond.Lexical ∧ yes.Lexical ∧ no.Lexical
  | index _ target bit => target.Lexical ∧ bit.Lexical
  | range _ target high low => target.Lexical ∧ high.Lexical ∧ low.Lexical

/-- What a token of a kind is written as, where the kind decides it. -/
def Kind.spelling? : Kind → Option String
  | symbol s => some s.spelling
  | keyword w => some w.spelling
  | _ => none

theorem Kind.Writes.spelling {k : Kind} {text value s : String} (h : k.Writes text value)
    (spelled : k.spelling? = some s) : text = s := by
  cases k with
  | symbol x =>
    cases spelled
    exact h.2
  | keyword w =>
    cases spelled
    exact h.2
  | _ => cases spelled

theorem Kind.constForm?_of_truth {k : Kind}
    (truth : k = .keyword .trueWord ∨ k = .keyword .falseWord) : k.constForm? = some .bool := by
  rcases truth with rfl | rfl <;> rfl

theorem Kind.Writes.constant {k : Kind} {text value : String} {form : ConstForm}
    (h : k.Writes text value) (found : k.constForm? = some form) :
    text = (Constant.mk form value).text ∧ (Constant.mk form value).Proper := by
  cases k with
  | literal f => cases f <;> cases found <;> exact h
  | keyword w =>
    cases w <;> cases found
    · exact ⟨h.1.symm, .inl (h.1.trans h.2)⟩
    · exact ⟨h.1.symm, .inr (h.1.trans h.2)⟩
  | _ => cases found

/-- A token that does not depend on the scope is the same in every scope. -/
theorem Reading.kind_in_scope {r : Reading} {κ : Kind} (h : r.current.kind = κ)
    (plain : κ.isScoped = false) (scope : Scope) :
    ({ r with scope } : Reading).current.kind = κ := by
  have same := Kind.eq_of_inScope_eq h plain
  simp only [current, Token.inScope, same]
  exact Kind.inScope_eq_self scope plain

namespace Parse

variable {α β : Type} {r : Reading}

theorem unexpected_ne_ok {wanted : Wanted} {a : α} {r' : Reading} :
    unexpected wanted r ≠ (.ok a, r') := by
  have never : Ensures (fun (_ : α) _ => False) (unexpected wanted) r := .unexpected wanted
  exact never a r'

/-- Where a token of a kind is expected and found, it is the next one. -/
theorem advance_of_expect {κ : Kind} {wanted : Wanted} {t : Token} {r' : Reading}
    (h : expect κ wanted r = (.ok t, r')) : r.current.kind = κ ∧ advance r = (.ok t, r') := by
  unfold expect at h
  by_cases kind : r.current.kind = κ
  · rw [if_pos kind] at h
    exact ⟨kind, h⟩
  · rw [if_neg kind] at h
    exact absurd h unexpected_ne_ok

/-! ## What a step takes -/

/-- From the reading `r` on, where `p` succeeds, it takes tokens off the front, and the result and
the texts of these tokens are as `post` says. -/
def Takes (post : α → List String → Prop) (p : Parse α) (r : Reading) : Prop :=
  (∀ t ∈ r.tokens, t.Spelled) → ∀ a r', p r = (.ok a, r') → r'.stop = r.stop ∧
    ∃ used, r.tokens = used ++ r'.tokens ∧ post a (used.map (·.text.latin))

namespace Takes

variable {post : β → List String → Prop}

theorem weaken {post' : β → List String → Prop} {p : Parse β} (h : Takes post p r)
    (le : ∀ b ts, post b ts → post' b ts) : Takes post' p r := by
  intro spelled b r' hp
  obtain ⟨stop, used, split, done⟩ := h spelled b r' hp
  exact ⟨stop, used, split, le _ _ done⟩

theorem bind {mid : α → List String → Prop} {p : Parse α} {f : α → Parse β}
    (first : Takes mid p r)
    (second : ∀ a ts r', mid a ts → Takes (fun b ts' => post b (ts ++ ts')) (f a) r') :
    Takes post (p >>= f) r := by
  intro spelled b r'' hb
  obtain ⟨a, r', hp, hf⟩ := andThen_ok hb
  obtain ⟨stop, used, split, done⟩ := first spelled a r' hp
  have later : ∀ t ∈ r'.tokens, t.Spelled := by
    intro t ht
    apply spelled
    rw [split]
    exact List.mem_append_right _ ht
  obtain ⟨stop', used', split', done'⟩ := second a _ r' done later b r'' hf
  refine ⟨stop'.trans stop, used ++ used', ?_, ?_⟩
  · rw [split, split', List.append_assoc]
  · rw [List.map_append]
    exact done'

theorem succeed {b : β} (h : post b []) : Takes post (Parse.succeed b) r := by
  intro _ b' r' hb
  cases hb
  exact ⟨rfl, [], rfl, h⟩

theorem never {p : Parse β} (h : ∀ a r', p r ≠ (.ok a, r')) : Takes post p r :=
  fun _ a r' hp => absurd hp (h a r')

theorem fail (cause : Cause) (span : Span) : Takes post (Parse.fail cause span) r :=
  never fun _ _ h => by cases h

theorem unexpected (wanted : Wanted) : Takes post (Parse.unexpected wanted) r :=
  never fun _ _ => unexpected_ne_ok

theorem look {f : Token → Parse β} (h : Takes post (f r.current) r) :
    Takes post (peek >>= f) r := h

theorem remaining {f : Nat → Parse β} (h : Takes post (f r.tokens.length) r) :
    Takes post (Parse.remaining >>= f) r := h

theorem currentScope {f : Scope → Parse β} (h : Takes post (f r.scope) r) :
    Takes post (Parse.currentScope >>= f) r := h

theorem isVector {name : String} {f : Bool → Parse β} (h : Takes post (f (r.widths.has name)) r) :
    Takes post (Parse.isVector name >>= f) r := h

theorem ifAt {κ : Kind} {yes no : Parse β} (hy : r.current.kind = κ → Takes post yes r)
    (hn : Takes post no r) :
    Takes post (Parse.isAt κ >>= fun b => if b = true then yes else no) r := by
  have both : Takes post (if (r.current.kind == κ) = true then yes else no) r := by
    by_cases h : (r.current.kind == κ) = true
    · rw [if_pos h]
      exact hy (eq_of_beq h)
    · rw [if_neg h]
      exact hn
  exact both

theorem withScope {scope : Scope} {p : Parse β} (h : Takes post p { r with scope }) :
    Takes post (Parse.withScope scope p) r := by
  intro spelled b r' hp
  unfold Parse.withScope at hp
  cases hr : p { r with scope } with
  | mk result r₁ =>
    rw [hr] at hp
    cases hp
    exact h spelled b r₁ hr

/-- Taking the next token, if there is one. -/
theorem advance (more : r.tokens ≠ []) :
    Takes (fun t ts => t = r.current ∧ t.Spelled ∧ ts = [t.text.latin]) Parse.advance r := by
  intro spelled t r' h
  cases ht : r.tokens with
  | nil => exact absurd ht more
  | cons u rest =>
    simp only [Parse.advance, ht] at h
    cases h
    have now := Reading.current_of_tokens ht
    refine ⟨rfl, [u], rfl, rfl, ?_, ?_⟩
    · rw [now]
      exact (spelled u (by rw [ht]; exact List.mem_cons_self)).inScope _
    · rw [now]
      rfl

/-- Taking a token whose kind decides its text. -/
theorem advance_spelled {s : String} (h : r.current.kind.spelling? = some s) :
    Takes (fun t ts => t = r.current ∧ ts = [s]) Parse.advance r := by
  have more : r.tokens ≠ [] := Reading.tokens_of_some h rfl rfl
  refine (advance more).weaken ?_
  rintro t ts ⟨rfl, spelled, rfl⟩
  exact ⟨rfl, by rw [spelled.spelling h]⟩

theorem expect {κ : Kind} {wanted : Wanted} (more : κ ≠ .eof) (valid : κ ≠ .invalid) :
    Takes (fun t ts => t.kind = κ ∧ t.Spelled ∧ ts = [t.text.latin]) (Parse.expect κ wanted) r := by
  intro spelled t r' h
  obtain ⟨kind, taken⟩ := advance_of_expect h
  have found := advance (Reading.tokens_ne_nil kind more valid) spelled t r' taken
  obtain ⟨stop, used, split, rfl, written, texts⟩ := found
  exact ⟨stop, used, split, kind, written, texts⟩

theorem expect_spelled {κ : Kind} {wanted : Wanted} {s : String} (h : κ.spelling? = some s) :
    Takes (fun _ ts => ts = [s]) (Parse.expect κ wanted) r := by
  have more : κ ≠ .eof := by rintro rfl; cases h
  have valid : κ ≠ .invalid := by rintro rfl; cases h
  refine (expect more valid).weaken ?_
  rintro t ts ⟨rfl, spelled, rfl⟩
  rw [spelled.spelling h]

theorem expect_name {wanted : Wanted} :
    Takes (fun t ts => IsName t.name ∧ ts = [t.name]) (Parse.expect .ident wanted) r := by
  refine (expect (by simp) (by simp)).weaken ?_
  rintro t ts ⟨kind, spelled, rfl⟩
  obtain ⟨same, name⟩ := spelled.ident kind
  rw [same]
  exact ⟨name, rfl⟩

theorem advance_constant {form : ConstForm} (h : r.current.kind.constForm? = some form) :
    Takes (fun t ts => t = r.current ∧ (Constant.mk form t.name).Proper ∧
      ts = [(Constant.mk form t.name).text]) Parse.advance r := by
  have more : r.tokens ≠ [] := Reading.tokens_of_some h rfl rfl
  refine (advance more).weaken ?_
  rintro t ts ⟨rfl, spelled, rfl⟩
  obtain ⟨text, proper⟩ := spelled.constant h
  exact ⟨rfl, proper, by rw [text]⟩

end Takes

/-! ## Paths -/

/-- A path spells the tokens and is made of names. -/
def NamesPath (p : Path) (ts : List String) : Prop := p.texts = ts ∧ p.Lexical

theorem NamesPath.name {s : Segment} (name : IsName s.name) : NamesPath ⟨s, []⟩ [s.name] := by
  refine ⟨by simp [Path.texts], ?_⟩
  intro s' hs
  obtain rfl := List.mem_singleton.mp hs
  exact name

/-- A name and a path behind a dot. -/
theorem NamesPath.joint {s : Segment} {p : Path} {ts : List String} (name : IsName s.name)
    (names : NamesPath p ts) :
    NamesPath ⟨s, p.segments⟩ ([s.name] ++ ([Symbol.dot.spelling] ++ (ts ++ []))) := by
  obtain ⟨rfl, later⟩ := names
  refine ⟨by simp [Path.texts, Path.segments, Symbol.spelling, Symbol.name], ?_⟩
  exact List.forall_mem_cons.mpr ⟨name, later⟩

theorem takes_segments (fuel : Nat) : ∀ r, Takes NamesPath (segments fuel) r := by
  induction fuel with
  | zero => exact fun r => .never fun _ _ h => by cases h
  | succ fuel ih =>
    intro r
    refine .bind .expect_name ?_
    rintro t ts r ⟨name, rfl⟩
    refine .ifAt (fun dot => ?_) ?_
    · refine .bind (.advance_spelled (by rw [dot]; rfl)) ?_
      rintro _ _ r ⟨-, rfl⟩
      refine .bind (ih r) ?_
      exact fun rest ts r names => .succeed (.joint name names)
    · exact .succeed (.name name)

theorem takes_path : Takes NamesPath path r := .remaining (takes_segments _ _)

/-! ## Levels of the grammar -/

/-- The expression spells the tokens, and it may stand where a level is wanted. -/
structure Faithful (n : Level) (e : Expr) (ts : List String) : Prop where
  texts : e.texts = ts
  fits : e.Fits n
  lexical : e.Lexical

theorem Faithful.mono {m n : Level} {e : Expr} {ts : List String} (h : Faithful n e ts)
    (le : m ≤ n) : Faithful m e ts :=
  ⟨h.texts, h.fits.mono le, h.lexical⟩

/-- The operators of a level that groups to the left. -/
def Joins (n : Level) (op? : Kind → Option Operator) : Prop :=
  ∀ k op, op? k = some op → k.spelling? = some op.spelling ∧ op.level = n ∧ op.leftLevel = n

theorem takes_leftRounds {n : Level} {next : Parse Expr} {op? : Kind → Option Operator}
    (joins : Joins n op?) (operand : ∀ r, Takes (Faithful n.tighter) next r) (fuel : Nat) :
    ∀ {left : Expr} {front : List String} (r : Reading), Faithful n left front →
      Takes (fun e ts => Faithful n e (front ++ ts)) (leftRounds next op? fuel left) r := by
  induction fuel with
  | zero => exact fun r _ => .never fun _ _ h => by cases h
  | succ fuel ih =>
    intro left front r before
    refine .look ?_
    split
    · exact .succeed (by rwa [List.append_nil])
    · next op found =>
      obtain ⟨spelled, level, leftLevel⟩ := joins _ op found
      refine .bind (.advance_spelled spelled) ?_
      rintro _ _ r ⟨-, rfl⟩
      refine .bind (operand r) ?_
      rintro right ts r behind
      have joined : Faithful n (.binary (left.span.cover right.span) op left right)
          (front ++ op.spelling :: ts) := by
        refine ⟨?_, ?_, before.lexical, behind.lexical⟩
        · rw [Expr.texts, before.texts, behind.texts]
        · refine ⟨Nat.le_of_eq (by rw [level]), ?_, ?_⟩
          · rw [leftLevel]
            exact before.fits
          · rw [level]
            exact behind.fits
      refine (ih r joined).weaken ?_
      intro e ts'
      simp only [List.append_assoc, List.cons_append, List.nil_append]
      exact id

theorem takes_leftAssoc {n : Level} {next : Parse Expr} {op? : Kind → Option Operator}
    (joins : Joins n op?) (operand : ∀ r, Takes (Faithful n.tighter) next r) (r : Reading) :
    Takes (Faithful n) (leftAssoc next op?) r := by
  refine .bind (operand r) fun left ts r first => .remaining ?_
  exact takes_leftRounds joins operand _ r (first.mono n.le_tighter)

theorem takes_behindUnary {n m : Level} {op : UnaryOperator} {operand : Parse Expr}
    (spelled : r.current.kind.spelling? = some op.spelling) (alone : op ≠ .paren)
    (inner : ∀ r, Takes (Faithful m) operand r)
    (fits : ∀ s e, e.Fits m → (Expr.unary s op e).Fits n) :
    Takes (Faithful n) (behindUnary op operand) r := by
  refine .bind (.advance_spelled spelled) ?_
  rintro t _ r' ⟨-, rfl⟩
  refine .bind (inner r') ?_
  intro e ts r' faithful
  refine .succeed ⟨?_, fits _ e faithful.fits, faithful.lexical⟩
  cases op with
  | paren => exact absurd rfl alone
  | _ => simp [Expr.texts, faithful.texts]

theorem relationOp?_spelling {k : Kind} {op : Operator} (found : k.relationOp? = some op) :
    k.spelling? = some op.spelling ∧ op.level = .relation := by
  unfold Kind.relationOp? at found
  split at found <;> cases found <;> exact ⟨rfl, rfl⟩

section Levels

variable {expr : Parse Expr} (h : ∀ r, Takes (Faithful .choice) expr r)

include h

theorem takes_bounds (opens : r.current.kind = .symbol .lbracket) :
    Takes (fun b ts => ∃ high, Faithful .choice b.1 high ∧ match b.2 with
      | none => ts = "[" :: high
      | some low => ∃ more, Faithful .choice low more ∧ ts = "[" :: high ++ ":" :: more)
      (bounds expr) r := by
  refine .bind (.advance_spelled (by rw [opens]; rfl)) ?_
  rintro _ _ r ⟨-, rfl⟩
  refine .bind (h r) ?_
  intro high ts r first
  refine .ifAt (fun sep => ?_) (.succeed ⟨ts, first, by simp [Symbol.spelling, Symbol.name]⟩)
  refine .bind (.advance_spelled (by rw [sep]; rfl)) ?_
  rintro _ _ r ⟨-, rfl⟩
  refine .bind (h r) ?_
  intro low ts' r second
  exact .succeed ⟨ts, first, ts', second, by simp [Symbol.spelling, Symbol.name]⟩

theorem takes_splice {target : Path} {front : List String} (names : NamesPath target front)
    (opens : r.current.kind = .symbol .lbracket) :
    Takes (fun e ts => Faithful .atom e (front ++ ts)) (splice expr target) r := by
  obtain ⟨rfl, names⟩ := names
  refine .isVector ?_
  split
  · refine .bind (.withScope (takes_bounds h (Reading.kind_in_scope opens rfl .index))) ?_
    rintro ⟨high, low?⟩ ts r ⟨first, faithful, written⟩
    refine .bind (.expect_spelled rfl) ?_
    rintro _ _ r rfl
    cases low? with
    | none =>
      obtain rfl : ts = "[" :: first := written
      refine .succeed ⟨?_, faithful.fits, names, faithful.lexical⟩
      simp [Expr.texts, faithful.texts, Symbol.spelling, Symbol.name]
    | some low =>
      obtain ⟨more, faithful', rfl⟩ := written
      refine .succeed ⟨?_, ⟨faithful.fits, faithful'.fits⟩, names, faithful.lexical,
        faithful'.lexical⟩
      simp [Expr.texts, faithful.texts, faithful'.texts, Symbol.spelling, Symbol.name]
  · exact .fail _ _

theorem takes_reference (r : Reading) : Takes (Faithful .atom) (reference expr) r := by
  refine .bind takes_path ?_
  intro target ts r names
  refine .ifAt (fun opens => takes_splice h names opens) (.succeed ?_)
  exact ⟨by rw [List.append_nil]; exact names.1, trivial, names.2⟩

theorem takes_parenthesized (opens : r.current.kind = .symbol .lparen) :
    Takes (Faithful .atom) (parenthesized expr) r := by
  refine .bind (.advance_spelled (by rw [opens]; rfl)) ?_
  rintro _ _ r ⟨-, rfl⟩
  refine .bind (h r) ?_
  intro inner ts r faithful
  refine .bind (.expect_spelled rfl) ?_
  rintro _ _ r rfl
  refine .succeed ⟨?_, faithful.fits, faithful.lexical⟩
  simp [Expr.texts, faithful.texts, Symbol.spelling, Symbol.name]

theorem takes_atom (r : Reading) : Takes (Faithful .atom) (atom expr) r := by
  refine .look ?_
  split
  · next form found =>
    refine .bind (.advance_constant found) ?_
    rintro t ts r' ⟨rfl, proper, rfl⟩
    exact .succeed ⟨rfl, trivial, proper⟩
  · by_cases opens : r.current.kind = .symbol .lparen
    · rw [if_pos opens]
      exact .withScope (takes_parenthesized h (Reading.kind_in_scope opens rfl .general))
    · rw [if_neg opens]
      split
      · exact takes_reference h r
      · exact .unexpected _

theorem takes_power (r : Reading) : Takes (Faithful .power) (power expr) r := by
  refine takes_leftAssoc (n := .power) ?_ (takes_atom h) r
  intro k op found
  unfold Kind.powerOp? at found
  split at found <;> cases found
  exact ⟨rfl, rfl, rfl⟩

theorem takes_factor (r : Reading) : Takes (Faithful .sign) (factor expr) r := by
  have le : Level.sign ≤ .power := by decide
  refine .look ?_
  split
  · next minus =>
    refine takes_behindUnary (by rw [minus]; rfl) (by decide) (takes_power h) ?_
    intro s e fits
    exact ⟨Nat.le_refl _, fits⟩
  · next not =>
    refine takes_behindUnary (by rw [not]; rfl) (by decide) (takes_power h) ?_
    intro s e fits
    exact .inr ⟨Nat.le_refl _, fits⟩
  · exact (takes_power h r).weaken fun e ts faithful => faithful.mono le

theorem takes_product (r : Reading) : Takes (Faithful .product) (product expr) r := by
  refine takes_leftAssoc (n := .product) ?_ (takes_factor h) r
  intro k op found
  unfold Kind.productOp? at found
  split at found <;> cases found <;> exact ⟨rfl, rfl, rfl⟩

theorem takes_sum (r : Reading) : Takes (Faithful .sum) (sum expr) r := by
  refine takes_leftAssoc (n := .sum) ?_ (takes_product h) r
  intro k op found
  unfold Kind.sumOp? at found
  split at found <;> cases found <;> exact ⟨rfl, rfl, rfl⟩

theorem takes_comparison (r : Reading) : Takes (Faithful .relation) (comparison expr) r := by
  have le : Level.relation ≤ .sum := by decide
  refine .look ?_
  split
  · next truth =>
    have found : r.current.kind.constForm? = some .bool := Kind.constForm?_of_truth truth
    refine .bind (.advance_constant found) ?_
    rintro t ts r' ⟨rfl, proper, rfl⟩
    exact .succeed ⟨rfl, trivial, proper⟩
  · refine .bind (takes_sum h r) ?_
    intro left front r before
    refine .look ?_
    split
    · exact .succeed (by rw [List.append_nil]; exact before.mono le)
    · next op found =>
      obtain ⟨spelled, level⟩ := relationOp?_spelling found
      refine .bind (.advance_spelled spelled) ?_
      rintro _ _ r ⟨-, rfl⟩
      refine .bind (takes_sum h r) ?_
      intro right ts r behind
      refine .succeed ⟨?_, ⟨Nat.le_of_eq (by rw [level]), ?_, ?_⟩, before.lexical,
        behind.lexical⟩
      · simp [Expr.texts, before.texts, behind.texts]
      · rw [Operator.leftLevel, if_pos level]
        exact before.fits
      · rw [level]
        exact behind.fits

theorem takes_relation (r : Reading) : Takes (Faithful .relation) (relation expr) r := by
  refine .currentScope ?_
  split
  · exact takes_comparison h r
  · exact .withScope (takes_comparison h _)

theorem takes_boolFactor (r : Reading) : Takes (Faithful .leading) (boolFactor expr) r := by
  have le : Level.leading ≤ .relation := by decide
  refine .look ?_
  split
  · next bang =>
    refine takes_behindUnary (by rw [bang]; rfl) (by decide) (takes_relation h) ?_
    intro s e fits
    exact ⟨Nat.le_refl _, fits⟩
  · next not =>
    refine takes_behindUnary (by rw [not]; rfl) (by decide) (takes_relation h) ?_
    intro s e fits
    exact .inl ⟨Nat.le_refl _, fits⟩
  · exact (takes_relation h r).weaken fun e ts faithful => faithful.mono le

theorem takes_boolExpr (r : Reading) : Takes (Faithful .boolean) (boolExpr expr) r := by
  refine takes_leftAssoc (n := .boolean) ?_ (takes_boolFactor h) r
  intro k op found
  unfold Kind.boolOp? at found
  split at found <;> cases found <;> exact ⟨rfl, rfl, rfl⟩

theorem takes_choice (r : Reading) : Takes (Faithful .choice) (choice expr) r := by
  have le : Level.choice ≤ .boolean := by decide
  refine .bind (takes_boolExpr h r) ?_
  intro cond front r first
  refine .ifAt (fun question => ?_) (.succeed (by rw [List.append_nil]; exact first.mono le))
  refine .bind (.advance_spelled (by rw [question]; rfl)) ?_
  rintro _ _ r ⟨-, rfl⟩
  refine .bind (h r) ?_
  intro yes ts r second
  refine .bind (.expect_spelled rfl) ?_
  rintro _ _ r rfl
  refine .bind (h r) ?_
  intro no ts' r third
  refine .succeed ⟨?_, ⟨Nat.le_refl _, first.fits, second.fits, third.fits⟩, first.lexical,
    second.lexical, third.lexical⟩
  simp [Expr.texts, first.texts, second.texts, third.texts, Symbol.spelling, Symbol.name]

end Levels

theorem takes_expressionUpTo (depth : Nat) :
    ∀ r, Takes (Faithful .choice) (expressionUpTo depth) r := by
  induction depth with
  | zero => exact fun r => .never fun _ _ h => by cases h
  | succ depth ih => exact takes_choice ih

theorem takes_expression (r : Reading) : Takes (Faithful .choice) expression r :=
  .remaining (takes_expressionUpTo _ r)

/-- The end of the source is behind the tokens, and nothing is taken for it. -/
theorem expect_eof {wanted : Wanted} {t : Token} {r' : Reading}
    (spelled : ∀ t ∈ r.tokens, t.Spelled) (h : expect .eof wanted r = (.ok t, r')) :
    r.tokens = [] ∧ ∃ span, r.stop = .eof span := by
  obtain ⟨kind, -⟩ := advance_of_expect h
  cases left : r.tokens with
  | nil =>
    cases ends : r.stop with
    | eof span => exact ⟨rfl, span, rfl⟩
    | fault e =>
      simp only [Reading.current, left, ends] at kind
      cases kind
  | cons u rest =>
    -- a token of the stream is never the end
    have written : u.Spelled := spelled u (by rw [left]; exact List.mem_cons_self)
    rw [Reading.current_of_tokens left] at kind
    unfold Token.Spelled at written
    rw [Kind.eq_of_inScope_eq kind rfl] at written
    exact written.elim

/-- An expression that takes all tokens. -/
theorem wholeExpression_faithful {e : Expr} {r' : Reading} (spelled : ∀ t ∈ r.tokens, t.Spelled)
    (h : wholeExpression r = (.ok e, r')) :
    (∃ span, r.stop = .eof span) ∧ Faithful .choice e (r.tokens.map (·.text.latin)) := by
  obtain ⟨e', r₁, hp, hf⟩ := andThen_ok h
  obtain ⟨stop, used, split, faithful⟩ := takes_expression r spelled e' r₁ hp
  obtain ⟨t, r₂, ends, done⟩ := andThen_ok hf
  cases done
  have behind : ∀ u ∈ r₁.tokens, u.Spelled := by
    intro u hu
    apply spelled
    rw [split]
    exact List.mem_append_right _ hu
  obtain ⟨none, last⟩ := expect_eof behind ends
  rw [stop] at last
  rw [split, none, List.append_nil]
  exact ⟨last, faithful⟩

end Parse

/-- An expression that was read from a source spells the tokens of the whole source in their order,
and its operators group as their levels demand. -/
theorem Expr.parse_faithful {c : Cursor} {widths : Widths} {e : Expr} {r : Reading}
    (h : Expr.parse c widths = (.ok e, r)) :
    (∃ span, (Stream.ofCursor c).stop = .eof span) ∧
      e.texts = (Stream.ofCursor c).tokens.map (·.text.latin) ∧ e.Fits .choice := by
  have read := Parse.wholeExpression_faithful (fun t ht => Stream.scan_spelled t ht) h
  obtain ⟨whole, faithful⟩ := read
  exact ⟨whole, faithful.texts, faithful.fits⟩

def differenceBelow : Cursor := .ofFile ⟨0, "", Bytes.ofString "a-b<c", 0⟩

/-- What is computed of a parsed expression is a fact about it. -/
theorem Expr.parsed_of_eq {α : Type} {c : Cursor} {widths : Widths} {f : Expr → α} {a : α}
    (h : (Expr.parse c widths).1.toOption.map f = some a) :
    ∃ e r, Expr.parse c widths = (.ok e, r) ∧ f e = a := by
  cases run : Expr.parse c widths with
  | mk result r =>
    rw [run] at h
    cases result with
    | error cause => cases h
    | ok e => exact ⟨e, r, rfl, Option.some_inj.mp h⟩

theorem parse_faithful_differenceBelow :
    ∃ e r, Expr.parse differenceBelow [] = (.ok e, r) ∧
      e.texts = ["a", "-", "b", "<", "c"] ∧ e.Fits .choice := by
  have tokens : (Stream.ofCursor differenceBelow).tokens.map (·.text.latin) =
      ["a", "-", "b", "<", "c"] := by decide +kernel
  obtain ⟨e, r, parsed, -⟩ : ∃ e r, Expr.parse differenceBelow [] = (.ok e, r) ∧ () = () :=
    Expr.parsed_of_eq (by decide +kernel)
  obtain ⟨-, texts, fits⟩ := Expr.parse_faithful parsed
  exact ⟨e, r, parsed, texts.trans tokens, fits⟩

end CircuitCompiler
