import CircuitCompiler.Proofs.Grammar
import CircuitCompiler.Proofs.Spaced

/-!
# The sentences of the expression grammar

The productions of expressions, over the spellings of tokens. A parser that looks one token ahead
does not take all of them as they are documented: it commits itself. `Productions.predictive` has
the conditions under which it comes out where the documented productions would.

* `Derives`: the sentences of a level at a place;
* `Parse.Reads`: what a step takes off the tokens, and that it leaves the rest of the reading alone;
* `Parse.reads_expression`: what is parsed is a sentence of the predictive productions.
-/

namespace CircuitCompiler

/-- Where an expression stands: between the brackets of a bit selection, or anywhere else.
Parentheses lead out of brackets. -/
inductive Place where
  | outside
  | bracketed
  deriving DecidableEq, Repr

inductive Productions where
  /-- As they are documented. -/
  | documented
  /-- As they are taken by looking at the next token. -/
  | predictive
  deriving DecidableEq, Repr

/-- The levels at which operands are joined by operators, any number of them. -/
def Level.Chains (n : Level) : Prop := n = .boolean ∨ n = .sum ∨ n = .product ∨ n = .power

/-- A relation that starts with a truth value ends there. -/
def Productions.Commits : Productions → List String → Prop
  | documented, _ => True
  | predictive, ts => ts.head? ≠ some "true" ∧ ts.head? ≠ some "false"

/-- The spellings `ts` are a sentence of a level at a place, where bits may be taken of the vectors
`ws`. -/
inductive Derives (g : Productions) (ws : Widths) : Place → Level → List String → Prop
  | constant {place : Place} {value : Constant} : value.Proper →
      Derives g ws place .atom [value.text]
  | group {place : Place} {ts : List String} : Derives g ws .outside .choice ts →
      Derives g ws place .atom ("(" :: ts ++ [")"])
  | name {place : Place} {p : Path} : p.Lexical → Derives g ws place .atom p.texts
  | bit {place : Place} {p : Path} {ts : List String} : p.Lexical → ws.has p.text = true →
      Derives g ws .bracketed .choice ts → Derives g ws place .atom (p.texts ++ "[" :: ts ++ ["]"])
  | range {place : Place} {p : Path} {high low : List String} : p.Lexical → ws.has p.text = true →
      Derives g ws .bracketed .choice high → Derives g ws .bracketed .choice low →
      Derives g ws place .atom (p.texts ++ "[" :: high ++ ":" :: low ++ ["]"])
  | chain {place : Place} {n : Level} {first : List String} {items : List (Operator × List String)} :
      n.Chains → Derives g ws place n.tighter first → (∀ i ∈ items, i.1.level = n) →
      (∀ i ∈ items, Derives g ws place n.tighter i.2) →
      Derives g ws place n (first ++ items.flatMap fun i => i.1.spelling :: i.2)
  | unsigned {place : Place} {ts : List String} : Derives g ws place .power ts →
      Derives g ws place .sign ts
  | signed {place : Place} {op : UnaryOperator} {ts : List String} : op = .neg ∨ op = .not →
      Derives g ws place .power ts → Derives g ws place .sign (op.spelling :: ts)
  | truth {place : Place} {value : Constant} : value.form = .bool → value.Proper →
      Derives g ws place .relation [value.text]
  | uncompared {place : Place} {ts : List String} : Derives g ws place .sum ts → g.Commits ts →
      Derives g ws place .relation ts
  /-- The symbol `<=` compares only outside brackets. -/
  | compared {place : Place} {op : Operator} {left right : List String} : op.level = .relation →
      Derives g ws place .sum left → Derives g ws place .sum right → g.Commits left →
      (g = .predictive → op = .le → place = .outside) →
      Derives g ws place .relation (left ++ op.spelling :: right)
  /-- A leading `not` negates the whole relation. -/
  | positive {place : Place} {ts : List String} : Derives g ws place .relation ts →
      (g = .predictive → ts.head? ≠ some "not") → Derives g ws place .leading ts
  | negated {place : Place} {op : UnaryOperator} {ts : List String} : op = .bang ∨ op = .not →
      Derives g ws place .relation ts → Derives g ws place .leading (op.spelling :: ts)
  | settled {place : Place} {ts : List String} : Derives g ws place .boolean ts →
      Derives g ws place .choice ts
  | chosen {cond yes no : List String} : Derives g ws .outside .boolean cond →
      Derives g ws .outside .choice yes → Derives g ws .outside .choice no →
      Derives g ws .outside .choice (cond ++ "?" :: yes ++ ":" :: no)

/-- The scope in which the sentences of a level are read at a place. -/
def Place.scopeAt : Place → Level → Scope
  | bracketed, _ => .index
  | outside, .choice | outside, .boolean | outside, .leading | outside, .relation => .general
  | outside, _ => .relational

/-- Only a relation has its operands read in another scope. -/
theorem Place.scopeAt_tighter (place : Place) {n : Level} (other : n ≠ .relation) :
    place.scopeAt n.tighter = place.scopeAt n := by
  cases place <;> cases n <;> first | rfl | exact absurd rfl other

namespace Parse

variable {α β : Type} {r : Reading}

/-! ## What a step reads -/

/-- From the reading `r` on, where `p` succeeds, it takes tokens off the front and changes nothing
else, and the result and the spellings of these tokens are as `post` says. -/
def Reads (post : α → List String → Prop) (p : Parse α) (r : Reading) : Prop :=
  (∀ u ∈ r.tokens, u.Canonical) → ∀ a r', p r = (.ok a, r') →
    ∃ used last, r.tokens = used ++ r'.tokens ∧ r' = { r with tokens := r'.tokens, last } ∧
      post a (used.map (·.text.latin))

namespace Reads

variable {post : β → List String → Prop}

theorem weaken {post' : β → List String → Prop} {p : Parse β} (h : Reads post p r)
    (le : ∀ b ts, post b ts → post' b ts) : Reads post' p r := by
  intro canonical b r' hp
  obtain ⟨used, last, split, same, done⟩ := h canonical b r' hp
  exact ⟨used, last, split, same, le _ _ done⟩

theorem bind {mid : α → List String → Prop} {p : Parse α} {f : α → Parse β}
    (first : Reads mid p r)
    (second : ∀ a ts rest last, mid a ts →
      Reads (fun b ts' => post b (ts ++ ts')) (f a) { r with tokens := rest, last }) :
    Reads post (p >>= f) r := by
  intro canonical b r'' hb
  obtain ⟨a, r', hp, hf⟩ := andThen_ok hb
  obtain ⟨used, last, split, same, done⟩ := first canonical a r' hp
  have later : ∀ u ∈ r'.tokens, u.Canonical := by
    intro u hu
    apply canonical
    rw [split]
    exact List.mem_append_right _ hu
  rw [same] at hf
  obtain ⟨used', last', split', same', done'⟩ :=
    second a _ r'.tokens last done later b r'' hf
  refine ⟨used ++ used', last', ?_, same', ?_⟩
  · rw [split, List.append_assoc]
    exact congrArg _ split'
  · rw [List.map_append]
    exact done'

theorem succeed {b : β} (h : post b []) : Reads post (Parse.succeed b) r := by
  intro _ b' r' hb
  cases hb
  exact ⟨[], r.last, rfl, rfl, h⟩

theorem never {p : Parse β} (h : ∀ a r', p r ≠ (.ok a, r')) : Reads post p r :=
  fun _ a r' hp => absurd hp (h a r')

theorem fail (cause : Cause) (span : Span) : Reads post (Parse.fail cause span) r :=
  never fun _ _ h => by cases h

theorem unexpected (wanted : Wanted) : Reads post (Parse.unexpected wanted) r :=
  never fun _ _ => unexpected_ne_ok

theorem look {f : Token → Parse β} (h : Reads post (f r.current) r) :
    Reads post (peek >>= f) r := h

theorem remaining {f : Nat → Parse β} (h : Reads post (f r.tokens.length) r) :
    Reads post (Parse.remaining >>= f) r := h

theorem currentScope {f : Scope → Parse β} (h : Reads post (f r.scope) r) :
    Reads post (Parse.currentScope >>= f) r := h

theorem isVector {name : String} {f : Bool → Parse β} (h : Reads post (f (r.widths.has name)) r) :
    Reads post (Parse.isVector name >>= f) r := h

theorem ifAt {κ : Kind} {yes no : Parse β} (hy : r.current.kind = κ → Reads post yes r)
    (hn : Reads post no r) :
    Reads post (Parse.isAt κ >>= fun b => if b = true then yes else no) r := by
  have both : Reads post (if (r.current.kind == κ) = true then yes else no) r := by
    by_cases h : (r.current.kind == κ) = true
    · rw [if_pos h]
      exact hy (eq_of_beq h)
    · rw [if_neg h]
      exact hn
  exact both

theorem withScope {scope : Scope} {p : Parse β} (h : Reads post p { r with scope }) :
    Reads post (Parse.withScope scope p) r := by
  intro canonical b r' hp
  unfold Parse.withScope at hp
  cases hr : p { r with scope } with
  | mk result r₁ =>
    rw [hr] at hp
    cases hp
    obtain ⟨used, last, split, same, done⟩ := h canonical b r₁ hr
    refine ⟨used, last, split, ?_, done⟩
    rw [same]

/-- Taking the next token, if there is one. -/
theorem advance (more : r.tokens ≠ []) :
    Reads (fun t ts => t = r.current ∧ t.Spelled ∧ ts = [t.text.latin]) Parse.advance r := by
  intro canonical t r' h
  cases ht : r.tokens with
  | nil => exact absurd ht more
  | cons u rest =>
    simp only [Parse.advance, ht] at h
    cases h
    have now := Reading.current_of_tokens ht
    refine ⟨[u], u.span, rfl, rfl, rfl, ?_, ?_⟩
    · rw [now]
      exact (canonical u (by rw [ht]; exact List.mem_cons_self)).spelled.inScope _
    · rw [now]
      rfl

/-- Taking a token whose kind decides its text. -/
theorem advance_spelled {s : String} (h : r.current.kind.spelling? = some s) :
    Reads (fun _ ts => ts = [s]) Parse.advance r := by
  have more : r.tokens ≠ [] := Reading.tokens_of_some h rfl rfl
  refine (advance more).weaken ?_
  rintro t ts ⟨rfl, spelled, rfl⟩
  rw [spelled.spelling h]

theorem expect {κ : Kind} {wanted : Wanted} (more : κ ≠ .eof) (valid : κ ≠ .invalid) :
    Reads (fun t ts => t.kind = κ ∧ t.Spelled ∧ ts = [t.text.latin]) (Parse.expect κ wanted) r := by
  intro canonical t r' h
  obtain ⟨kind, taken⟩ := advance_of_expect h
  obtain ⟨used, last, split, same, rfl, spelled, texts⟩ :=
    advance (Reading.tokens_ne_nil kind more valid) canonical t r' taken
  exact ⟨used, last, split, same, kind, spelled, texts⟩

theorem expect_spelled {κ : Kind} {wanted : Wanted} {s : String} (h : κ.spelling? = some s) :
    Reads (fun _ ts => ts = [s]) (Parse.expect κ wanted) r := by
  have more : κ ≠ .eof := by rintro rfl; cases h
  have valid : κ ≠ .invalid := by rintro rfl; cases h
  refine (expect more valid).weaken ?_
  rintro t ts ⟨rfl, spelled, rfl⟩
  rw [spelled.spelling h]

theorem expect_name {wanted : Wanted} :
    Reads (fun t ts => IsName t.name ∧ ts = [t.name]) (Parse.expect .ident wanted) r := by
  refine (expect (by simp) (by simp)).weaken ?_
  rintro t ts ⟨kind, spelled, rfl⟩
  obtain ⟨same, name⟩ := spelled.ident kind
  rw [same]
  exact ⟨name, rfl⟩

theorem advance_constant {form : ConstForm} (h : r.current.kind.constForm? = some form) :
    Reads (fun t ts => t = r.current ∧ (Constant.mk form t.name).Proper ∧
      ts = [(Constant.mk form t.name).text]) Parse.advance r := by
  have more : r.tokens ≠ [] := Reading.tokens_of_some h rfl rfl
  refine (advance more).weaken ?_
  rintro t ts ⟨rfl, spelled, rfl⟩
  obtain ⟨text, proper⟩ := spelled.constant h
  exact ⟨rfl, proper, by rw [text]⟩

/-- What is read does not start with the spelling of a reserved word that is not next. -/
theorem avoids {w : Keyword} {p : Parse β} (other : r.current.kind ≠ .keyword w)
    (h : Reads post p r) :
    Reads (fun b ts => post b ts ∧ ts.head? ≠ some w.spelling) p r := by
  intro canonical b r' hp
  obtain ⟨used, last, split, same, done⟩ := h canonical b r' hp
  refine ⟨used, last, split, same, done, fun starts => ?_⟩
  obtain ⟨u, us, rfl⟩ : ∃ u us, used = u :: us := by
    cases used with
    | nil => cases starts
    | cons u us => exact ⟨u, us, rfl⟩
  have text : u.text.latin = w.spelling := Option.some.inj starts
  have here : (Kind.keyword w).Writes u.text.latin w.spelling := by
    rw [text]
    exact ⟨rfl, rfl⟩
  have kind := ((canonical u (by rw [split]; simp)).decided _ _ here).1
  apply other
  rw [Reading.current_of_tokens split]
  show u.kind.inScope r.scope = _
  rw [kind]
  rfl

end Reads

/-! ## Paths and chains -/

theorem reads_segments (fuel : Nat) : ∀ r, Reads NamesPath (segments fuel) r := by
  induction fuel with
  | zero => exact fun r => .never fun _ _ h => by cases h
  | succ fuel ih =>
    intro r
    refine .bind .expect_name ?_
    rintro t ts rest last ⟨name, rfl⟩
    refine .ifAt (fun dot => ?_) ?_
    · refine .bind (.advance_spelled (by rw [dot]; rfl)) ?_
      rintro _ _ rest last rfl
      refine .bind (ih _) ?_
      exact fun path ts rest last names => .succeed (.joint name names)
    · exact .succeed (.name name)

theorem reads_path : Reads NamesPath path r := .remaining (reads_segments _ _)

/-- The sentences of the predictive productions, for what is read. -/
def Sentence (ws : Widths) (place : Place) (n : Level) (_ : Expr) (ts : List String) : Prop :=
  Derives .predictive ws place n ts

section Chains

variable {place : Place} {n : Level} {next : Parse Expr} {op? : Kind → Option Operator}
  (joins : Joins n op?)
  (operand : ∀ r, r.scope = place.scopeAt n → Reads (Sentence r.widths place n.tighter) next r)

include joins operand

theorem reads_leftRounds (fuel : Nat) : ∀ {left : Expr} (r : Reading), r.scope = place.scopeAt n →
    Reads (fun _ ts => ∃ items : List (Operator × List String),
      ts = (items.flatMap fun i => i.1.spelling :: i.2) ∧ (∀ i ∈ items, i.1.level = n) ∧
        ∀ i ∈ items, Derives .predictive r.widths place n.tighter i.2)
      (leftRounds next op? fuel left) r := by
  induction fuel with
  | zero => exact fun r _ => .never fun _ _ h => by cases h
  | succ fuel ih =>
    intro left r scope
    refine .look ?_
    split
    · exact .succeed ⟨[], rfl, by simp, by simp⟩
    · next op found =>
      obtain ⟨spelled, level, -⟩ := joins _ op found
      refine .bind (.advance_spelled spelled) ?_
      rintro _ _ rest last rfl
      refine .bind (operand _ scope) ?_
      intro right ts rest last sentence
      refine (ih { r with tokens := rest, last } scope).weaken ?_
      rintro e ts' ⟨items, rfl, levels, operands⟩
      refine ⟨(op, ts) :: items, by simp, ?_, ?_⟩
      · exact List.forall_mem_cons.mpr ⟨level, levels⟩
      · exact List.forall_mem_cons.mpr ⟨sentence, operands⟩

theorem reads_leftAssoc (chains : n.Chains) (r : Reading) (scope : r.scope = place.scopeAt n) :
    Reads (Sentence r.widths place n) (leftAssoc next op?) r := by
  refine .bind (operand r scope) fun left ts rest last first => .remaining ?_
  refine (reads_leftRounds joins operand _ { r with tokens := rest, last } scope).weaken ?_
  rintro e ts' ⟨items, rfl, levels, operands⟩
  exact .chain chains first levels operands

end Chains

/-! ## Levels of the grammar -/

theorem ne_le_of_index {k : Kind} {op : Operator}
    (found : (k.inScope .index).relationOp? = some op) : op ≠ .le := by
  rintro rfl
  cases k with
  | symbol s => cases s <;> cases found
  | _ => cases found

section Levels

variable {expr : Parse Expr} {place : Place}
  (h : ∀ place r, r.scope = place.scopeAt .choice → Reads (Sentence r.widths place .choice) expr r)

include h

theorem reads_bounds (scope : r.scope = .index) (opens : r.current.kind = .symbol .lbracket) :
    Reads (fun b ts => ∃ high, Derives .predictive r.widths .bracketed .choice high ∧ match b.2 with
      | none => ts = "[" :: high
      | some _ => ∃ low, Derives .predictive r.widths .bracketed .choice low ∧
        ts = "[" :: high ++ ":" :: low) (bounds expr) r := by
  refine .bind (.advance_spelled (by rw [opens]; rfl)) ?_
  rintro _ _ rest last rfl
  refine .bind (h .bracketed _ scope) ?_
  intro high ts rest last first
  refine .ifAt (fun sep => ?_) (.succeed ⟨ts, first, by simp [Symbol.spelling, Symbol.name]⟩)
  refine .bind (.advance_spelled (by rw [sep]; rfl)) ?_
  rintro _ _ rest last rfl
  refine .bind (h .bracketed _ scope) ?_
  intro low ts' rest last second
  exact .succeed ⟨ts, first, ts', second, by simp [Symbol.spelling, Symbol.name]⟩

theorem reads_splice {target : Path} {front : List String} (names : NamesPath target front)
    (opens : r.current.kind = .symbol .lbracket) :
    Reads (fun e ts => Sentence r.widths place .atom e (front ++ ts)) (splice expr target) r := by
  obtain ⟨rfl, names⟩ := names
  refine .isVector ?_
  split
  · next vector =>
    have opens := Reading.kind_in_scope opens rfl .index
    refine .bind (.withScope (reads_bounds h rfl opens)) ?_
    rintro ⟨high, low?⟩ ts rest last ⟨first, sentence, written⟩
    refine .bind (.expect_spelled rfl) ?_
    rintro _ _ rest last rfl
    cases low? with
    | none =>
      obtain rfl : ts = "[" :: first := written
      have whole : Derives .predictive r.widths place .atom
          (target.texts ++ "[" :: first ++ ["]"]) := .bit names vector sentence
      refine .succeed ?_
      simpa [Sentence, Symbol.spelling, Symbol.name] using whole
    | some low =>
      obtain ⟨more, sentence', rfl⟩ := written
      have whole : Derives .predictive r.widths place .atom
          (target.texts ++ "[" :: first ++ ":" :: more ++ ["]"]) :=
        .range names vector sentence sentence'
      refine .succeed ?_
      simpa [Sentence, Symbol.spelling, Symbol.name] using whole
  · exact .fail _ _

theorem reads_reference (r : Reading) :
    Reads (Sentence r.widths place .atom) (reference expr) r := by
  refine .bind reads_path ?_
  intro target ts rest last names
  refine .ifAt (fun opens => reads_splice h names opens) (.succeed ?_)
  rw [List.append_nil, ← names.1]
  exact .name names.2

theorem reads_parenthesized (scope : r.scope = .general)
    (opens : r.current.kind = .symbol .lparen) :
    Reads (Sentence r.widths place .atom) (parenthesized expr) r := by
  refine .bind (.advance_spelled (by rw [opens]; rfl)) ?_
  rintro _ _ rest last rfl
  refine .bind (h .outside _ scope) ?_
  intro inner ts rest last sentence
  refine .bind (.expect_spelled rfl) ?_
  rintro _ _ rest last rfl
  have whole : Derives .predictive r.widths place .atom ("(" :: ts ++ [")"]) := .group sentence
  refine .succeed ?_
  simpa [Sentence, Symbol.spelling, Symbol.name] using whole

theorem reads_atom (r : Reading) : Reads (Sentence r.widths place .atom) (atom expr) r := by
  refine .look ?_
  split
  · next form found =>
    refine .bind (.advance_constant found) ?_
    rintro t ts rest last ⟨rfl, proper, rfl⟩
    exact .succeed (.constant proper)
  · by_cases opens : r.current.kind = .symbol .lparen
    · rw [if_pos opens]
      exact .withScope (reads_parenthesized h rfl (Reading.kind_in_scope opens rfl .general))
    · rw [if_neg opens]
      split
      · exact reads_reference h r
      · exact .unexpected _

theorem reads_power (r : Reading) (scope : r.scope = place.scopeAt .power) :
    Reads (Sentence r.widths place .power) (power expr) r := by
  refine reads_leftAssoc (n := .power) ?_ (fun r _ => reads_atom h r) (by simp [Level.Chains]) r
    scope
  intro k op found
  unfold Kind.powerOp? at found
  split at found <;> cases found
  exact ⟨rfl, rfl, rfl⟩

theorem reads_factor (r : Reading) (scope : r.scope = place.scopeAt .sign) :
    Reads (Sentence r.widths place .sign) (factor expr) r := by
  have scope : r.scope = place.scopeAt .power :=
    scope.trans (place.scopeAt_tighter (n := .sign) (by decide)).symm
  refine .look ?_
  split
  · next minus =>
    refine .bind (.advance_spelled (s := "-") (by rw [minus]; rfl)) ?_
    rintro _ _ rest last rfl
    refine .bind (reads_power h _ scope) fun e ts rest last sentence => .succeed ?_
    rw [List.append_nil]
    exact .signed (.inl rfl) sentence
  · next not =>
    refine .bind (.advance_spelled (s := "not") (by rw [not]; rfl)) ?_
    rintro _ _ rest last rfl
    refine .bind (reads_power h _ scope) fun e ts rest last sentence => .succeed ?_
    rw [List.append_nil]
    exact .signed (.inr rfl) sentence
  · exact (reads_power h r scope).weaken fun e ts sentence => .unsigned sentence

theorem reads_product (r : Reading) (scope : r.scope = place.scopeAt .product) :
    Reads (Sentence r.widths place .product) (product expr) r := by
  refine reads_leftAssoc (n := .product) ?_ (fun r scope => ?_) (by simp [Level.Chains]) r scope
  · intro k op found
    unfold Kind.productOp? at found
    split at found <;> cases found <;> exact ⟨rfl, rfl, rfl⟩
  · exact reads_factor h r (scope.trans (place.scopeAt_tighter (by decide)).symm)

theorem reads_sum (r : Reading) (scope : r.scope = place.scopeAt .sum) :
    Reads (Sentence r.widths place .sum) (sum expr) r := by
  refine reads_leftAssoc (n := .sum) ?_ (fun r scope => ?_) (by simp [Level.Chains]) r scope
  · intro k op found
    unfold Kind.sumOp? at found
    split at found <;> cases found <;> exact ⟨rfl, rfl, rfl⟩
  · exact reads_product h r (scope.trans (place.scopeAt_tighter (by decide)).symm)

theorem reads_comparison (r : Reading) (scope : r.scope = place.scopeAt .sum) :
    Reads (Sentence r.widths place .relation) (comparison expr) r := by
  refine .look ?_
  split
  · next truth =>
    have found : r.current.kind.constForm? = some .bool := Kind.constForm?_of_truth truth
    refine .bind (.advance_constant found) ?_
    rintro t ts rest last ⟨rfl, proper, rfl⟩
    exact .succeed (.truth rfl proper)
  · next other =>
    obtain ⟨notTrue, notFalse⟩ := not_or.mp other
    -- no truth value is next, so the left operand does not start with one: it commits
    refine .bind (.avoids notTrue (.avoids notFalse (reads_sum h r scope))) ?_
    rintro left front rest last ⟨⟨before, starts⟩, starts'⟩
    refine .look ?_
    split
    · refine .succeed ?_
      rw [List.append_nil]
      exact .uncompared before ⟨starts', starts⟩
    · next op found =>
      obtain ⟨spelled, level⟩ := relationOp?_spelling found
      refine .bind (.advance_spelled spelled) ?_
      rintro _ _ rest' last' rfl
      refine .bind (reads_sum h _ scope) fun right ts rest last behind => .succeed ?_
      rw [List.append_nil]
      refine .compared level before behind ⟨starts', starts⟩ fun _ le => ?_
      cases place with
      | outside => rfl
      | bracketed =>
        -- here the symbol `<=` is read as an assignment
        have index : r.scope = .index := scope
        simp only [Reading.current, Token.inScope, index] at found
        exact absurd le (ne_le_of_index found)

theorem reads_relation (r : Reading) (scope : r.scope = place.scopeAt .relation) :
    Reads (Sentence r.widths place .relation) (relation expr) r := by
  refine .currentScope ?_
  cases place with
  | outside =>
    have other : r.scope ≠ .index := by rw [scope]; decide
    rw [if_neg other]
    exact .withScope (reads_comparison h _ rfl)
  | bracketed =>
    have index : r.scope = .index := scope
    rw [if_pos index]
    exact reads_comparison h r scope

theorem reads_boolFactor (r : Reading) (scope : r.scope = place.scopeAt .leading) :
    Reads (Sentence r.widths place .leading) (boolFactor expr) r := by
  have scope : r.scope = place.scopeAt .relation :=
    scope.trans (place.scopeAt_tighter (n := .leading) (by decide)).symm
  refine .look ?_
  split
  · next bang =>
    refine .bind (.advance_spelled (s := "!") (by rw [bang]; rfl)) ?_
    rintro _ _ rest last rfl
    refine .bind (reads_relation h _ scope) fun e ts rest last sentence => .succeed ?_
    rw [List.append_nil]
    exact .negated (.inl rfl) sentence
  · next not =>
    refine .bind (.advance_spelled (s := "not") (by rw [not]; rfl)) ?_
    rintro _ _ rest last rfl
    refine .bind (reads_relation h _ scope) fun e ts rest last sentence => .succeed ?_
    rw [List.append_nil]
    exact .negated (.inr rfl) sentence
  · next other =>
    refine (Reads.avoids other (reads_relation h r scope)).weaken ?_
    rintro e ts ⟨sentence, starts⟩
    exact .positive sentence fun _ => starts

theorem reads_boolExpr (r : Reading) (scope : r.scope = place.scopeAt .boolean) :
    Reads (Sentence r.widths place .boolean) (boolExpr expr) r := by
  refine reads_leftAssoc (n := .boolean) ?_ (fun r scope => ?_) (by simp [Level.Chains]) r scope
  · intro k op found
    unfold Kind.boolOp? at found
    split at found <;> cases found <;> exact ⟨rfl, rfl, rfl⟩
  · exact reads_boolFactor h r (scope.trans (place.scopeAt_tighter (by decide)).symm)

theorem reads_choice (r : Reading) (scope : r.scope = place.scopeAt .choice) :
    Reads (Sentence r.widths place .choice) (choice expr) r := by
  have inner : r.scope = place.scopeAt .boolean :=
    scope.trans (place.scopeAt_tighter (n := .choice) (by decide)).symm
  refine .bind (reads_boolExpr h r inner) ?_
  intro cond front rest last first
  refine .ifAt (fun question => ?_) ?_
  · refine .bind (.advance_spelled (by rw [question]; rfl)) ?_
    rintro _ _ rest last rfl
    refine .bind (h place _ scope) ?_
    intro yes ts rest last second
    cases place with
    | outside =>
      refine .bind (.expect_spelled rfl) ?_
      rintro _ _ rest last rfl
      refine .bind (h .outside _ scope) fun no ts' rest last third => .succeed ?_
      have whole := Derives.chosen first second third
      simpa [Sentence, Symbol.spelling, Symbol.name] using whole
    | bracketed =>
      -- between brackets a colon parts the bounds
      have parts : ∀ k : Kind, k.inScope .index ≠ .symbol .colon := by
        intro k kind
        cases k with
        | symbol s => cases s <;> cases kind
        | _ => cases kind
      have none : Reads (fun _ _ => False) (Parse.expect (.symbol .colon) .choiceColon)
          { r with tokens := rest, last } := by
        refine .never fun t r' taken => ?_
        have kind := (advance_of_expect taken).1
        have index : r.scope = .index := scope
        simp only [Reading.current, Token.inScope, index] at kind
        exact parts _ kind
      exact .bind none fun _ _ _ _ never => never.elim
  · refine .succeed ?_
    rw [List.append_nil]
    exact .settled first

end Levels

theorem reads_expressionUpTo (depth : Nat) :
    ∀ place r, r.scope = place.scopeAt .choice →
      Reads (Sentence r.widths place .choice) (expressionUpTo depth) r := by
  induction depth with
  | zero => exact fun _ _ _ => .never fun _ _ h => by cases h
  | succ depth ih => exact fun _ r scope => reads_choice ih r scope

/-- What is parsed in the general scope is a sentence outside all brackets. -/
theorem reads_expression (r : Reading) (scope : r.scope = .general) :
    Reads (Sentence r.widths .outside .choice) expression r :=
  .remaining (reads_expressionUpTo _ .outside r scope)

end Parse
end CircuitCompiler
