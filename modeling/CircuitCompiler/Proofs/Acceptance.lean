import CircuitCompiler.Proofs.Sentences

/-!
# Which sentences are accepted

The parser accepts exactly the sentences of the predictive productions. That it accepts no others is
`Parse.reads_expression`; that it accepts all of them goes by induction on the sentence. Each level
stops at a token that does not go on with an expression of the level (`Ends`), which the productions
guarantee for every sentence in a longer one.

* `Derives.starts`: the tokens that a sentence starts with;
* `Parse.Accepts`: a parser takes a sentence, whatever stands behind it;
* `Parse.accepts_of_derives`: all levels, over expressions of every depth;
* `Expr.parse_spaced_iff`: a whole expression, written with spaces between its tokens.
-/

namespace CircuitCompiler

/-! ## Tokens that go on with an expression -/

/-- The level at which a token of a kind goes on with the expression in front of it. -/
def Kind.joint? : Kind → Option Level
  | symbol .question => some .choice
  | symbol .amp | symbol .pipe | symbol .caret => some .boolean
  | symbol .lt | symbol .gt | symbol .ltEq | symbol .sigAssign | symbol .gtEq | symbol .eqEq
  | symbol .bangEq => some .relation
  | symbol .plus | symbol .minus | keyword .or | keyword .nor => some .sum
  | symbol .star | symbol .slash | symbol .percent | keyword .and | keyword .nand | keyword .xor
  | keyword .xnor => some .product
  | symbol .starStar => some .power
  | symbol .dot | symbol .lbracket => some .atom
  | _ => none

theorem Kind.joint?_inScope (k : Kind) (scope : Scope) : (k.inScope scope).joint? = k.joint? := by
  cases k with
  | symbol s => cases s <;> cases scope <;> rfl
  | _ => rfl

theorem Kind.inScope_inScope (k : Kind) (scope scope' : Scope) :
    (k.inScope scope).inScope scope' = k.inScope scope' := by
  cases k with
  | symbol s => cases s <;> cases scope <;> rfl
  | _ => rfl

/-- The token of an operator, read as a comparison where it can be one. -/
def Operator.kind : Operator → Kind
  | boolAnd => .symbol .amp
  | boolOr => .symbol .pipe
  | boolXor => .symbol .caret
  | lt => .symbol .lt
  | gt => .symbol .gt
  | le => .symbol .ltEq
  | ge => .symbol .gtEq
  | eq => .symbol .eqEq
  | ne => .symbol .bangEq
  | add => .symbol .plus
  | sub => .symbol .minus
  | wordOr => .keyword .or
  | wordNor => .keyword .nor
  | mul => .symbol .star
  | div => .symbol .slash
  | mod => .symbol .percent
  | wordAnd => .keyword .and
  | wordNand => .keyword .nand
  | wordXor => .keyword .xor
  | wordXnor => .keyword .xnor
  | pow => .symbol .starStar

theorem Operator.kind_writes (op : Operator) : op.kind.Writes op.spelling op.spelling := by
  cases op <;> exact ⟨rfl, rfl⟩

theorem Operator.joint?_kind (op : Operator) : op.kind.joint? = some op.level := by
  cases op <;> rfl

/-- The first of the tokens does not go on with an expression of the level. -/
def Ends (n : Level) (tokens : List Token) : Prop :=
  ∀ u ∈ tokens.head?, ∀ m, u.kind.joint? = some m → ¬n ≤ m

theorem Ends.mono {m n : Level} {tokens : List Token} (h : Ends m tokens) (le : m ≤ n) :
    Ends n tokens :=
  fun u hu l joint tight => h u hu l joint (Level.le_trans le tight)

theorem Ends.current {n : Level} {r : Reading} (h : Ends n r.tokens) {m : Level}
    (joint : r.current.kind.joint? = some m) : ¬n ≤ m := by
  cases split : r.tokens with
  | nil =>
    simp only [Reading.current, split] at joint
    cases stop : r.stop <;> simp [stop, Stop.token, Token.eof, Token.invalid, Token.inScope,
      Kind.inScope, Kind.joint?] at joint
  | cons u rest =>
    rw [Reading.current_of_tokens split, Token.inScope, Kind.joint?_inScope] at joint
    rw [split] at h
    exact h u rfl m joint

/-- A token that is not next is not read as the next one. -/
theorem Reading.current_ne {r : Reading} {κ : Kind} (other : ∀ u ∈ r.tokens.head?, u.kind ≠ κ)
    (plain : κ.isScoped = false) (more : κ ≠ .eof) (valid : κ ≠ .invalid) : r.current.kind ≠ κ := by
  intro kind
  obtain ⟨u, rest, split⟩ := List.exists_cons_of_ne_nil (Reading.tokens_ne_nil kind more valid)
  rw [Reading.current_of_tokens split] at kind
  rw [split] at other
  exact other u rfl (Kind.eq_of_inScope_eq kind plain)

theorem Ends.ne {tokens : List Token} {n m : Level} (h : Ends n tokens) {κ : Kind}
    (joint : κ.joint? = some m) (tight : n ≤ m) : ∀ u ∈ tokens.head?, u.kind ≠ κ := by
  rintro u hu rfl
  exact h u hu m joint tight

/-! ## Tokens of a sentence -/

/-- The tokens start with tokens that are spelled `ts`, behind which `rest` stands. -/
def Leads (tokens : List Token) (ts : List String) (rest : List Token) : Prop :=
  ∃ used, tokens = used ++ rest ∧ used.map (·.text.latin) = ts ∧ ∀ u ∈ used, u.Canonical

namespace Leads

variable {tokens rest : List Token} {t : String} {ts ts' : List String}

theorem nil (h : Leads tokens [] rest) : tokens = rest := by
  obtain ⟨used, split, texts, -⟩ := h
  rw [List.map_eq_nil_iff.mp texts] at split
  exact split

theorem append (h : Leads tokens (ts ++ ts') rest) : ∃ mid, Leads tokens ts mid ∧
    Leads mid ts' rest := by
  obtain ⟨used, split, texts, canonical⟩ := h
  obtain ⟨front, back, rfl, first, second⟩ := List.map_eq_append_iff.mp texts
  obtain ⟨here, later⟩ := List.forall_mem_append.mp canonical
  exact ⟨back ++ rest, ⟨front, by rw [split, List.append_assoc], first, here⟩,
    back, rfl, second, later⟩

theorem cons (h : Leads tokens (t :: ts) rest) : ∃ u mid, tokens = u :: mid ∧
    u.text.latin = t ∧ u.Canonical ∧ Leads mid ts rest := by
  obtain ⟨used, split, texts, canonical⟩ := h
  obtain ⟨u, us, rfl, text, later⟩ := List.map_eq_cons_iff.mp texts
  obtain ⟨here, behind⟩ := List.forall_mem_cons.mp canonical
  exact ⟨u, us ++ rest, split, text, here, us, rfl, later, behind⟩

theorem length (h : Leads tokens ts rest) : tokens.length = ts.length + rest.length := by
  obtain ⟨used, rfl, rfl, -⟩ := h
  simp

/-- The kind of the first token, by its spelling. -/
theorem head (h : Leads tokens (t :: ts) rest) {k : Kind} {value : String}
    (writes : k.Writes t value) : ∀ u ∈ tokens.head?, u.kind = k.inScope .general := by
  obtain ⟨u, mid, split, text, canonical, -⟩ := h.cons
  intro v hv
  rw [split] at hv
  cases hv
  exact (canonical.decided k value (by rw [text]; exact writes)).1

/-- The kind of the next token, by its spelling. -/
theorem current {r : Reading} (h : Leads r.tokens (t :: ts) rest) {k : Kind} {value : String}
    (writes : k.Writes t value) :
    r.current.kind = k.inScope r.scope ∧ r.current.name = value := by
  obtain ⟨u, mid, split, text, canonical, -⟩ := h.cons
  obtain ⟨kind, name⟩ := canonical.decided k value (by rw [text]; exact writes)
  rw [Reading.current_of_tokens split]
  refine ⟨?_, name⟩
  rw [Token.inScope, kind, Kind.inScope_inScope]

/-- A reserved word that is next is the first spelling. -/
theorem head_word {r : Reading} (h : Leads r.tokens (t :: ts) rest) {w : Keyword}
    (kind : r.current.kind = .keyword w) : t = w.spelling := by
  obtain ⟨u, mid, split, text, canonical, -⟩ := h.cons
  rw [Reading.current_of_tokens split] at kind
  have spelled := canonical.spelled
  rw [Token.Spelled, Kind.eq_of_inScope_eq kind rfl, text] at spelled
  exact spelled.2

theorem symbol {r : Reading} (s : Symbol) (h : Leads r.tokens (s.spelling :: ts) rest) :
    r.current.kind = (Kind.symbol s).inScope r.scope :=
  (h.current (k := .symbol s) ⟨rfl, rfl⟩).1

/-- A sentence ends where a token stands that does not go on with one of its level. -/
theorem ends (h : Leads tokens (t :: ts) rest) {k : Kind} {value : String}
    (writes : k.Writes t value) {n : Level} (other : ∀ m, k.joint? = some m → ¬n ≤ m) :
    Ends n tokens := by
  intro u hu m joint
  rw [h.head writes u hu, Kind.joint?_inScope] at joint
  exact other m joint

theorem ends_symbol (s : Symbol) (h : Leads tokens (s.spelling :: ts) rest) {n : Level}
    (other : ∀ m, (Kind.symbol s).joint? = some m → ¬n ≤ m) : Ends n tokens :=
  h.ends (k := .symbol s) ⟨rfl, rfl⟩ other

end Leads

/-! ## First tokens -/

/-- A token of the kind can start a sentence of the level. -/
def Kind.Starts (k : Kind) (n : Level) : Prop :=
  k.constForm?.isSome = true ∨ k = .symbol .lparen ∨ k = .ident ∨
    (n ≤ .sign ∧ (k = .symbol .minus ∨ k = .keyword .not)) ∨
    (n ≤ .leading ∧ (k = .symbol .bang ∨ k = .keyword .not))

theorem Kind.Starts.mono {k : Kind} {m n : Level} (h : k.Starts n) (le : m ≤ n) : k.Starts m := by
  rcases h with h | h | h | ⟨tight, h⟩ | ⟨tight, h⟩
  · exact .inl h
  · exact .inr (.inl h)
  · exact .inr (.inr (.inl h))
  · exact .inr (.inr (.inr (.inl ⟨Level.le_trans le tight, h⟩)))
  · exact .inr (.inr (.inr (.inr ⟨Level.le_trans le tight, h⟩)))

/-- The sentence starts with the spelling of a token that can start one. -/
def StartsAs (n : Level) (ts : List String) : Prop :=
  ∃ t more, ts = t :: more ∧ ∃ k : Kind, ∃ value, k.Writes t value ∧ k.Starts n

theorem StartsAs.append {n : Level} {ts : List String} (h : StartsAs n ts) (ts' : List String) :
    StartsAs n (ts ++ ts') := by
  obtain ⟨t, more, rfl, starts⟩ := h
  exact ⟨t, more ++ ts', rfl, starts⟩

theorem StartsAs.mono {m n : Level} {ts : List String} (h : StartsAs n ts) (le : m ≤ n) :
    StartsAs m ts := by
  obtain ⟨t, more, rfl, k, value, writes, starts⟩ := h
  exact ⟨t, more, rfl, k, value, writes, starts.mono le⟩

/-- The token of a constant. -/
theorem Constant.kind_writes {value : Constant} (proper : value.Proper) :
    ∃ k : Kind, k.constForm? = some value.form ∧ k.Writes value.text value.digits := by
  obtain ⟨form, digits⟩ := value
  cases form with
  | bool =>
    rcases proper with same | same
    · exact ⟨.keyword .trueWord, rfl, rfl, same⟩
    · exact ⟨.keyword .falseWord, rfl, rfl, same⟩
  | int => exact ⟨.literal .int, rfl, rfl, proper⟩
  | hexInt => exact ⟨.literal .hexInt, rfl, rfl, proper⟩
  | binInt => exact ⟨.literal .binInt, rfl, rfl, proper⟩
  | binVec => exact ⟨.literal .binVec, rfl, rfl, proper⟩
  | hexVec => exact ⟨.literal .hexVec, rfl, rfl, proper⟩

theorem startsAs_constant {n : Level} {value : Constant} (proper : value.Proper) :
    StartsAs n [value.text] := by
  obtain ⟨k, form, writes⟩ := Constant.kind_writes proper
  exact ⟨_, _, rfl, k, _, writes, .inl (by rw [form]; rfl)⟩

theorem startsAs_path {n : Level} {p : Path} (names : p.Lexical) : StartsAs n p.texts :=
  ⟨_, _, rfl, .ident, _, ⟨rfl, names p.head List.mem_cons_self⟩, .inr (.inr (.inl rfl))⟩

theorem Derives.starts {g : Productions} {ws : Widths} {place : Place} {n : Level}
    {ts : List String} (h : Derives g ws place n ts) : StartsAs n ts := by
  induction h with
  | constant proper => exact startsAs_constant proper
  | group _ _ => exact ⟨_, _, rfl, .symbol .lparen, _, ⟨rfl, rfl⟩, .inr (.inl rfl)⟩
  | name names => exact startsAs_path names
  | bit names _ _ _ => exact ((startsAs_path names).append _).append _
  | range names _ _ _ _ _ => exact (((startsAs_path names).append _).append _).append _
  | @chain _ n _ _ _ _ _ _ first _ => exact (first.mono n.le_tighter).append _
  | unsigned _ ih => exact ih.mono (by decide)
  | signed op _ _ =>
    rcases op with rfl | rfl
    · exact ⟨_, _, rfl, .symbol .minus, _, ⟨rfl, rfl⟩, .inr (.inr (.inr (.inl ⟨by decide, .inl rfl⟩)))⟩
    · exact ⟨_, _, rfl, .keyword .not, _, ⟨rfl, rfl⟩, .inr (.inr (.inr (.inl ⟨by decide, .inr rfl⟩)))⟩
  | truth _ proper => exact startsAs_constant proper
  | uncompared _ _ ih => exact ih.mono (by decide)
  | compared _ _ _ _ _ left _ => exact (left.mono (by decide)).append _
  | positive _ _ ih => exact ih.mono (by decide)
  | negated op _ _ =>
    rcases op with rfl | rfl
    · exact ⟨_, _, rfl, .symbol .bang, _, ⟨rfl, rfl⟩, .inr (.inr (.inr (.inr ⟨by decide, .inl rfl⟩)))⟩
    · exact ⟨_, _, rfl, .keyword .not, _, ⟨rfl, rfl⟩, .inr (.inr (.inr (.inr ⟨by decide, .inr rfl⟩)))⟩
  | settled _ ih => exact ih.mono (by decide)
  | chosen _ _ _ cond _ _ =>
    rw [List.append_assoc]
    exact (cond.mono (by decide)).append _

namespace Parse

variable {α β : Type} {r : Reading} {rest : List Token}

/-! ## Steps that succeed -/

/-- The step succeeds from `r` on with a result as `post` says, leaves the tokens `rest` and changes
nothing else. -/
def Yields (post : α → Prop) (p : Parse α) (r : Reading) (rest : List Token) : Prop :=
  ∃ a last, p r = (.ok a, { r with tokens := rest, last }) ∧ post a

namespace Yields

variable {post : α → Prop}

theorem bind {post : β → Prop} {mid : α → Prop} {p : Parse α} {f : α → Parse β}
    {between : List Token} (first : Yields mid p r between)
    (second : ∀ a last, mid a → Yields post (f a) { r with tokens := between, last } rest) :
    Yields post (p >>= f) r rest := by
  obtain ⟨a, last, run, done⟩ := first
  obtain ⟨b, last', run', done'⟩ := second a last done
  exact ⟨b, last', by rw [andThen_eq run, run'], done'⟩

theorem succeed {a : α} (h : r.tokens = rest) (done : post a) :
    Yields post (Parse.succeed a) r rest := by
  subst h
  exact ⟨a, r.last, rfl, done⟩

theorem advance {u : Token} (h : r.tokens = u :: rest) :
    Yields (· = r.current) Parse.advance r rest :=
  ⟨r.current, u.span, by simp only [Parse.advance, h], rfl⟩

theorem expect {u : Token} {κ : Kind} {wanted : Wanted} (kind : r.current.kind = κ)
    (h : r.tokens = u :: rest) : Yields (· = r.current) (Parse.expect κ wanted) r rest := by
  obtain ⟨a, last, run, same⟩ := advance h
  exact ⟨a, last, by rw [Parse.expect, if_pos kind, run], same⟩

theorem look {f : Token → Parse α} (h : Yields post (f r.current) r rest) :
    Yields post (peek >>= f) r rest := h

theorem remaining {f : Nat → Parse α} (h : Yields post (f r.tokens.length) r rest) :
    Yields post (Parse.remaining >>= f) r rest := h

theorem currentScope {f : Scope → Parse α} (h : Yields post (f r.scope) r rest) :
    Yields post (Parse.currentScope >>= f) r rest := h

theorem isVector {name : String} {f : Bool → Parse α}
    (h : Yields post (f (r.widths.has name)) r rest) :
    Yields post (Parse.isVector name >>= f) r rest := h

theorem withScope {scope : Scope} {p : Parse α} (h : Yields post p { r with scope } rest) :
    Yields post (Parse.withScope scope p) r rest := by
  obtain ⟨a, last, run, done⟩ := h
  exact ⟨a, last, by simp only [Parse.withScope, run], done⟩

theorem ifAt {κ : Kind} {yes no : Parse α} (here : r.current.kind = κ → Yields post yes r rest)
    (there : r.current.kind ≠ κ → Yields post no r rest) :
    Yields post (Parse.isAt κ >>= fun b => if b = true then yes else no) r rest := by
  have both : Yields post (if (r.current.kind == κ) = true then yes else no) r rest := by
    by_cases h : r.current.kind = κ
    · rw [if_pos (beq_iff_eq.mpr h)]
      exact here h
    · rw [if_neg (by simpa using h)]
      exact there h
  exact both

end Yields

/-- What the parser makes of a sentence is not looked at. -/
def Succeeds (p : Parse Expr) (r : Reading) (rest : List Token) : Prop :=
  Yields (fun _ => True) p r rest

/-- The parser takes the sentence `ts` in a scope, wherever it stands in front of a token that does
not go on with it. -/
def Accepts (p : Parse Expr) (scope : Scope) (ws : Widths) (n : Level) (ts : List String) : Prop :=
  ∀ r rest, Leads r.tokens ts rest → r.scope = scope → r.widths = ws → Ends n rest →
    Succeeds p r rest

/-! ## Chains of operators -/

theorem ends_items {n : Level} (loose : ¬n.tighter ≤ n) {items : List (Operator × List String)}
    (levels : ∀ i ∈ items, i.1.level = n) {tokens : List Token}
    (leads : Leads tokens (items.flatMap fun i => i.1.spelling :: i.2) rest) (ends : Ends n rest) :
    Ends n.tighter tokens := by
  cases items with
  | nil =>
    rw [leads.nil]
    exact ends.mono n.le_tighter
  | cons i items =>
    refine leads.ends i.1.kind_writes fun m joint => ?_
    rw [Operator.joint?_kind] at joint
    rw [← Option.some.inj joint, levels i List.mem_cons_self]
    exact loose

section Chains

variable {n : Level} {scope : Scope} {ws : Widths} {next : Parse Expr}
  {op? : Kind → Option Operator} (known : ∀ op, op.level = n → op? (op.kind.inScope scope) = some op)
  (joint : ∀ k op, op? k = some op → k.joint? = some n) (loose : ¬n.tighter ≤ n)

include known joint loose

theorem yields_leftRounds {items : List (Operator × List String)}
    (levels : ∀ i ∈ items, i.1.level = n)
    (operands : ∀ i ∈ items, Accepts next scope ws n.tighter i.2) (ends : Ends n rest) :
    ∀ {fuel : Nat} {left : Expr} (r : Reading),
      Leads r.tokens (items.flatMap fun i => i.1.spelling :: i.2) rest → r.scope = scope →
      r.widths = ws → items.length < fuel → Succeeds (leftRounds next op? fuel left) r rest := by
  induction items with
  | nil =>
    rintro (_ | fuel) left r leads - - enough
    · cases enough
    · -- the token behind the chain is no operator of its level, so the rounds stop there
      have tokens := leads.nil
      have ends : Ends n r.tokens := by rwa [tokens]
      refine .look ?_
      split
      · exact .succeed tokens trivial
      · next op found => exact absurd (Nat.le_refl _) (ends.current (joint _ op found))
  | cons i items ih =>
    rintro (_ | fuel) left r leads inScope widths enough
    · cases enough
    · obtain ⟨level, levels⟩ := List.forall_mem_cons.mp levels
      obtain ⟨operand, operands⟩ := List.forall_mem_cons.mp operands
      have found : op? r.current.kind = some i.1 := by
        rw [(leads.current i.1.kind_writes).1, inScope]
        exact known i.1 level
      obtain ⟨u, behind, tokens, -, -, leads⟩ := leads.cons
      obtain ⟨mid, first, later⟩ := leads.append
      refine .look ?_
      split
      · next none =>
        rw [found] at none
        cases none
      · refine .bind (.advance tokens) fun _ last _ => ?_
        refine .bind (operand _ mid first inScope widths (ends_items loose levels later ends)) ?_
        intro right last _
        exact ih levels operands _ later inScope widths (Nat.lt_of_succ_lt_succ enough)

variable (op?) in
theorem accepts_leftAssoc {first : List String} {items : List (Operator × List String)}
    (head : Accepts next scope ws n.tighter first) (levels : ∀ i ∈ items, i.1.level = n)
    (operands : ∀ i ∈ items, Accepts next scope ws n.tighter i.2) :
    Accepts (leftAssoc next op?) scope ws n
      (first ++ items.flatMap fun i => i.1.spelling :: i.2) := by
  intro r rest leads inScope widths ends
  obtain ⟨mid, here, later⟩ := leads.append
  refine .bind (head r mid here inScope widths (ends_items loose levels later ends)) ?_
  intro left last _
  refine .remaining ?_
  -- each operand has a token at least, so the rounds do not run out
  have enough : items.length < mid.length + 1 := by
    have count : items.length ≤ (items.flatMap fun i => i.1.spelling :: i.2).length := by
      clear levels operands later leads
      induction items with
      | nil => exact Nat.zero_le _
      | cons i items ih =>
        simp only [List.flatMap_cons, List.length_append, List.length_cons]
        omega
    have length := later.length
    omega
  exact yields_leftRounds known joint loose levels operands ends _ later inScope widths enough

end Chains

/-! ## Atoms -/

/-- A path is taken in front of a token that is no dot. -/
theorem yields_segments {tail : List Segment} : ∀ {head : Segment},
    (Path.mk head tail).Lexical → ∀ {fuel : Nat} (r : Reading),
      Leads r.tokens (Path.mk head tail).texts rest →
      (∀ u ∈ rest.head?, u.kind ≠ .symbol .dot) → tail.length < fuel →
      Yields (fun p => p.names = (Path.mk head tail).names) (segments fuel) r rest := by
  induction tail with
  | nil =>
    rintro head names (_ | fuel) r leads ends enough
    · cases enough
    · have name : IsName head.name := names head List.mem_cons_self
      obtain ⟨kind, value⟩ := leads.current (k := .ident) ⟨rfl, name⟩
      obtain ⟨u, behind, tokens, -, -, leads⟩ := leads.cons
      obtain rfl := leads.nil
      refine .bind (.expect kind tokens) ?_
      rintro t last rfl
      refine .ifAt (fun dot => ?_) fun _ => .succeed rfl ?_
      · exact absurd dot (Reading.current_ne (r := { r with tokens := behind, last }) ends rfl
          (by simp) (by simp))
      · simp [Path.names, Path.segments, value]
  | cons s tail ih =>
    rintro head names (_ | fuel) r leads ends enough
    · cases enough
    · have name : IsName head.name := names head List.mem_cons_self
      obtain ⟨kind, value⟩ := leads.current (k := .ident) ⟨rfl, name⟩
      obtain ⟨u, behind, tokens, -, -, leads⟩ := leads.cons
      refine .bind (.expect kind tokens) ?_
      rintro t last rfl
      have dot := (Leads.current (r := { r with tokens := behind, last }) leads
        (k := .symbol .dot) ⟨rfl, rfl⟩).1
      obtain ⟨v, behind', tokens', -, -, leads⟩ := leads.cons
      refine .ifAt (fun _ => ?_) fun other => absurd dot other
      refine .bind (.advance tokens') fun _ last' _ => ?_
      have later : (Path.mk s tail).Lexical := fun x hx => names x (List.mem_cons_of_mem _ hx)
      refine .bind (ih later _ leads ends (Nat.lt_of_succ_lt_succ enough)) ?_
      intro p last'' same
      refine .succeed rfl ?_
      have names : (Path.mk head (s :: tail)).names = head.name :: (Path.mk s tail).names := rfl
      rw [names, ← same, ← value]
      rfl

theorem yields_path {p : Path} (names : p.Lexical) (leads : Leads r.tokens p.texts rest)
    (other : ∀ u ∈ rest.head?, u.kind ≠ .symbol .dot) :
    Yields (fun q => q.text = p.text) path r rest := by
  have enough : p.tail.length < r.tokens.length + 1 := by
    have count : p.tail.length ≤ (p.tail.flatMap fun s => [".", s.name]).length := by
      rw [List.length_flatMap]
      simp
      omega
    have length := leads.length
    rw [Path.texts, List.length_cons] at length
    omega
  obtain ⟨q, last, run, same⟩ := Yields.remaining
    (f := fun n => segments (n + 1)) (yields_segments names r leads other enough)
  refine ⟨q, last, run, ?_⟩
  show q.text = p.text
  rw [Path.text, same, Path.text]

theorem constForm?_inScope (k : Kind) (scope : Scope) :
    (k.inScope scope).constForm? = k.constForm? := by
  cases k with
  | symbol s => cases s <;> cases scope <;> rfl
  | _ => rfl

section Atoms

variable {expr : Parse Expr} {scope : Scope} {ws : Widths}

theorem accepts_constant {value : Constant} (proper : value.Proper) :
    Accepts (atom expr) scope ws .atom [value.text] := by
  intro r rest leads inScope widths ends
  obtain ⟨k, form, writes⟩ := Constant.kind_writes proper
  have kind := (leads.current writes).1
  obtain ⟨u, behind, tokens, -, -, leads⟩ := leads.cons
  obtain rfl := leads.nil
  refine .look ?_
  split
  · exact .bind (.advance tokens) fun _ _ _ => .succeed rfl trivial
  · next none =>
    rw [kind, constForm?_inScope, form] at none
    cases none

theorem accepts_group {ts : List String} (inner : Accepts expr .general ws .choice ts) :
    Accepts (atom expr) scope ws .atom ("(" :: ts ++ [")"]) := by
  intro r rest leads inScope widths ends
  have opens : r.current.kind = .symbol .lparen := leads.symbol .lparen
  obtain ⟨u, behind, tokens, -, -, leads⟩ := leads.cons
  obtain ⟨mid, here, later⟩ := leads.append
  have closes : Ends .choice mid := later.ends_symbol .rparen (by simp [Kind.joint?])
  refine .look ?_
  split
  · next form found =>
    rw [opens] at found
    cases found
  · rw [if_pos opens]
    refine .withScope (.bind (.advance tokens) fun opening last _ => ?_)
    refine .bind (inner _ mid here rfl widths closes) fun e last _ => ?_
    have close := Leads.symbol (r := { r with tokens := mid, last, scope := .general }) .rparen later
    obtain ⟨v, behind', tokens', -, -, leads⟩ := later.cons
    obtain rfl := leads.nil
    exact .bind (.expect close tokens') fun _ _ _ => .succeed rfl trivial

/-- What starts with a path is a reference. -/
theorem accepts_reference {p : Path} {ts : List String} (names : p.Lexical)
    (h : Accepts (reference expr) scope ws .atom (p.texts ++ ts)) :
    Accepts (atom expr) scope ws .atom (p.texts ++ ts) := by
  intro r rest leads inScope widths ends
  have name : IsName p.head.name := names p.head List.mem_cons_self
  have ident : r.current.kind = .ident := (leads.current (k := .ident) ⟨rfl, name⟩).1
  refine .look ?_
  split
  · next form found =>
    rw [ident] at found
    cases found
  · rw [if_neg (by rw [ident]; simp), if_pos ident]
    exact h r rest leads inScope widths ends

theorem accepts_name {p : Path} (names : p.Lexical) :
    Accepts (atom expr) scope ws .atom p.texts := by
  rw [← List.append_nil p.texts]
  refine accepts_reference names fun r rest leads inScope widths ends => ?_
  rw [List.append_nil] at leads
  refine .bind (yields_path names leads (ends.ne rfl (Nat.le_refl _))) fun target last _ => ?_
  refine .ifAt (fun opens => ?_) fun _ => .succeed rfl trivial
  have other := ends.ne (κ := .symbol .lbracket) rfl (Nat.le_refl _)
  exact absurd opens (Reading.current_ne (r := { r with tokens := rest, last }) other rfl (by simp)
    (by simp))

/-- A selection of bits, of which only the bounds are still to be taken. -/
theorem accepts_selection {p : Path} {ts : List String} (names : p.Lexical)
    (vector : ws.has p.text = true)
    (inner : ∀ r rest, Leads r.tokens ("[" :: ts) rest → r.scope = .index → r.widths = ws →
      (∀ u ∈ rest.head?, u.kind = .symbol .rbracket) →
      Yields (fun _ => True) (bounds expr) r rest) :
    Accepts (atom expr) scope ws .atom (p.texts ++ ("[" :: ts ++ ["]"])) := by
  refine accepts_reference names fun r rest leads inScope widths ends => ?_
  obtain ⟨mid, here, later⟩ := leads.append
  -- the path ends at the bracket: a dot would go on with it
  have bracket : ∀ u ∈ mid.head?, u.kind ≠ .symbol .dot := by
    intro u hu
    rw [later.head (k := .symbol .lbracket) ⟨rfl, rfl⟩ u hu]
    decide
  refine .bind (yields_path names here bracket) fun target last same => ?_
  have opens : ({ r with tokens := mid, last } : Reading).current.kind = .symbol .lbracket :=
    Leads.symbol (r := { r with tokens := mid, last }) .lbracket later
  refine .ifAt (fun _ => ?_) fun other => absurd opens other
  refine .isVector ?_
  have known : r.widths.has target.text = true := by rw [same, widths, vector]
  rw [if_pos known]
  obtain ⟨close, first, later⟩ := (show Leads mid (("[" :: ts) ++ ["]"]) rest from later).append
  have closes : ∀ u ∈ close.head?, u.kind = .symbol .rbracket :=
    later.head (k := .symbol .rbracket) ⟨rfl, rfl⟩
  refine .bind (.withScope (inner _ close first rfl widths closes)) ?_
  rintro ⟨high, low?⟩ last _
  have here : ({ r with tokens := close, last } : Reading).current.kind = .symbol .rbracket :=
    Leads.symbol (r := { r with tokens := close, last }) .rbracket later
  obtain ⟨v, behind, tokens, -, -, more⟩ := later.cons
  obtain rfl := more.nil
  refine .bind (.expect here tokens) fun t last _ => ?_
  cases low? with
  | none => exact .succeed rfl trivial
  | some low => exact .succeed rfl trivial

theorem accepts_bit {p : Path} {ts : List String} (names : p.Lexical)
    (vector : ws.has p.text = true) (inner : Accepts expr .index ws .choice ts) :
    Accepts (atom expr) scope ws .atom (p.texts ++ ("[" :: ts ++ ["]"])) := by
  refine accepts_selection names vector fun r rest leads inScope widths closes => ?_
  have ends : Ends .choice rest := by
    intro u hu m joint
    rw [closes u hu] at joint
    cases joint
  obtain ⟨u, behind, tokens, -, -, leads⟩ := leads.cons
  refine .bind (.advance tokens) fun _ last _ => ?_
  refine .bind (inner _ rest leads inScope widths ends) fun high last _ => ?_
  refine .ifAt (fun sep => ?_) fun _ => .succeed rfl trivial
  -- the bracket that closes the selection is no colon
  obtain ⟨v, more, rfl⟩ := List.exists_cons_of_ne_nil
    (Reading.tokens_ne_nil sep (by simp) (by simp))
  have kind : (v.kind.inScope r.scope) = .symbol .rangeSep := sep
  rw [closes v rfl] at kind
  cases kind

theorem accepts_range {p : Path} {high low : List String} (names : p.Lexical)
    (vector : ws.has p.text = true) (first : Accepts expr .index ws .choice high)
    (second : Accepts expr .index ws .choice low) :
    Accepts (atom expr) scope ws .atom (p.texts ++ ("[" :: (high ++ ":" :: low) ++ ["]"])) := by
  refine accepts_selection names vector fun r rest leads inScope widths closes => ?_
  have ends : Ends .choice rest := by
    intro u hu m joint
    rw [closes u hu] at joint
    cases joint
  obtain ⟨u, behind, tokens, -, -, leads⟩ := leads.cons
  obtain ⟨mid, here, later⟩ := leads.append
  have parts : Ends .choice mid := later.ends_symbol .colon (by simp [Kind.joint?])
  refine .bind (.advance tokens) fun _ last _ => ?_
  refine .bind (first _ mid here inScope widths parts) fun high last _ => ?_
  have sep := Leads.symbol (r := { r with tokens := mid, last }) .rangeSep later
  obtain ⟨v, behind', tokens', -, -, later⟩ := later.cons
  refine .ifAt (fun _ => ?_) fun other => absurd ?_ other
  · refine .bind (.advance tokens') fun _ last _ => ?_
    refine .bind (second _ rest later inScope widths ends) fun low last _ => ?_
    exact .succeed rfl trivial
  · -- between brackets the colon is read as the one that parts the bounds
    rw [sep]
    show (Kind.symbol .rangeSep).inScope r.scope = _
    rw [inScope]
    rfl

end Atoms

/-! ## Signs, relations and choices -/

section Levels

variable {expr : Parse Expr} {scope : Scope} {ws : Widths} {ts : List String}

theorem succeeds_behindUnary {op : UnaryOperator} {operand : Parse Expr} {n m : Level}
    {r : Reading} {rest : List Token} (le : n ≤ m) (inner : Accepts operand scope ws m ts)
    (leads : Leads r.tokens (op.spelling :: ts) rest) (inScope : r.scope = scope)
    (widths : r.widths = ws) (ends : Ends n rest) :
    Succeeds (behindUnary op operand) r rest := by
  obtain ⟨u, behind, tokens, -, -, leads⟩ := leads.cons
  refine .bind (.advance tokens) fun _ last _ => ?_
  refine .bind (inner _ rest leads inScope widths (ends.mono le)) fun e last _ => ?_
  exact .succeed rfl trivial

theorem accepts_signed {op : UnaryOperator} (sign : op = .neg ∨ op = .not)
    (inner : Accepts (power expr) scope ws .power ts) :
    Accepts (factor expr) scope ws .sign (op.spelling :: ts) := by
  intro r rest leads inScope widths ends
  have le : Level.sign ≤ .power := by decide
  refine .look ?_
  rcases sign with rfl | rfl
  · have kind : r.current.kind = .symbol .minus := leads.symbol .minus
    rw [kind]
    exact succeeds_behindUnary le inner leads inScope widths ends
  · have kind : r.current.kind = .keyword .not := (leads.current (k := .keyword .not) ⟨rfl, rfl⟩).1
    rw [kind]
    exact succeeds_behindUnary le inner leads inScope widths ends

theorem accepts_unsigned (starts : StartsAs .power ts)
    (inner : Accepts (power expr) scope ws .power ts) :
    Accepts (factor expr) scope ws .sign ts := by
  intro r rest leads inScope widths ends
  have le : Level.sign ≤ .power := by decide
  have power := inner r rest leads inScope widths (ends.mono le)
  obtain ⟨t, more, rfl, k, value, writes, first⟩ := starts
  have kind := (leads.current writes).1
  -- what starts with a sign is no sentence of this level
  have other : k.inScope r.scope ≠ .symbol .minus ∧ k.inScope r.scope ≠ .keyword .not := by
    rcases first with const | rfl | rfl | ⟨tight, -⟩ | ⟨tight, -⟩
    · rw [← constForm?_inScope k r.scope] at const
      constructor <;> intro same <;> rw [same] at const <;> cases const
    · exact ⟨by simp [Kind.inScope], by simp [Kind.inScope]⟩
    · exact ⟨by simp [Kind.inScope], by simp [Kind.inScope]⟩
    · exact absurd tight (by decide)
    · exact absurd tight (by decide)
  refine .look ?_
  split
  · next minus => exact absurd (kind.symm.trans minus) other.1
  · next not => exact absurd (kind.symm.trans not) other.2
  · exact power

theorem accepts_negated {op : UnaryOperator} (negation : op = .bang ∨ op = .not)
    (inner : Accepts (relation expr) scope ws .relation ts) :
    Accepts (boolFactor expr) scope ws .leading (op.spelling :: ts) := by
  intro r rest leads inScope widths ends
  have le : Level.leading ≤ .relation := by decide
  refine .look ?_
  rcases negation with rfl | rfl
  · have kind : r.current.kind = .symbol .bang := leads.symbol .bang
    rw [kind]
    exact succeeds_behindUnary le inner leads inScope widths ends
  · have kind : r.current.kind = .keyword .not := (leads.current (k := .keyword .not) ⟨rfl, rfl⟩).1
    rw [kind]
    exact succeeds_behindUnary le inner leads inScope widths ends

theorem accepts_positive (starts : StartsAs .relation ts) (other : ts.head? ≠ some "not")
    (inner : Accepts (relation expr) scope ws .relation ts) :
    Accepts (boolFactor expr) scope ws .leading ts := by
  intro r rest leads inScope widths ends
  have le : Level.leading ≤ .relation := by decide
  have relation := inner r rest leads inScope widths (ends.mono le)
  obtain ⟨t, more, rfl, k, value, writes, first⟩ := starts
  refine .look ?_
  split
  · next bang =>
    exfalso
    have kind : k.inScope r.scope = .symbol .bang := (leads.current writes).1.symm.trans bang
    obtain rfl := Kind.eq_of_inScope_eq kind rfl
    rcases first with const | h | h | ⟨-, h | h⟩ | ⟨tight, -⟩
    · cases const
    · cases h
    · cases h
    · cases h
    · cases h
    · exact absurd tight (by decide)
  · -- a relation can start with the sign `not`, but then it is taken for the negation of all of it
    next not =>
    rw [leads.head_word not] at other
    exact absurd rfl other
  · exact relation

theorem joint?_relation {k : Kind} {op : Operator} (found : k.relationOp? = some op) :
    k.joint? = some .relation := by
  unfold Kind.relationOp? at found
  split at found <;> first | rfl | cases found

theorem accepts_truth {value : Constant} (truth : value.form = .bool) (proper : value.Proper) :
    Accepts (comparison expr) scope ws .relation [value.text] := by
  intro r rest leads inScope widths ends
  obtain ⟨k, form, writes⟩ := Constant.kind_writes proper
  have kind : r.current.kind = .keyword .trueWord ∨ r.current.kind = .keyword .falseWord := by
    rw [(leads.current writes).1]
    rw [truth] at form
    cases k with
    | literal f => cases f <;> cases form
    | keyword w => cases w <;> first | exact .inl rfl | exact .inr rfl | cases form
    | _ => cases form
  obtain ⟨u, behind, tokens, -, -, leads⟩ := leads.cons
  obtain rfl := leads.nil
  refine .look ?_
  rw [if_pos kind]
  exact .bind (.advance tokens) fun _ _ _ => .succeed rfl trivial

theorem not_truth {r : Reading} {rest : List Token} (commits : Productions.predictive.Commits ts)
    (starts : StartsAs .sum ts) (leads : Leads r.tokens ts rest) :
    ¬(r.current.kind = .keyword .trueWord ∨ r.current.kind = .keyword .falseWord) := by
  obtain ⟨t, more, rfl, -⟩ := starts
  rintro (kind | kind)
  · exact commits.1 (congrArg some (leads.head_word kind))
  · exact commits.2 (congrArg some (leads.head_word kind))

theorem accepts_uncompared (commits : Productions.predictive.Commits ts) (starts : StartsAs .sum ts)
    (inner : Accepts (sum expr) scope ws .sum ts) :
    Accepts (comparison expr) scope ws .relation ts := by
  intro r rest leads inScope widths ends
  have le : Level.relation ≤ .sum := by decide
  refine .look ?_
  rw [if_neg (not_truth commits starts leads)]
  refine .bind (inner r rest leads inScope widths (ends.mono le)) fun left last _ => .look ?_
  split
  · exact .succeed rfl trivial
  · next op found =>
    have joint := joint?_relation found
    exact absurd (Nat.le_refl _) (Ends.current (r := { r with tokens := rest, last }) ends joint)

theorem accepts_compared {op : Operator} {left right : List String}
    (commits : Productions.predictive.Commits left) (starts : StartsAs .sum left)
    (known : Kind.relationOp? (op.kind.inScope scope) = some op)
    (first : Accepts (sum expr) scope ws .sum left)
    (second : Accepts (sum expr) scope ws .sum right) :
    Accepts (comparison expr) scope ws .relation (left ++ op.spelling :: right) := by
  intro r rest leads inScope widths ends
  have le : Level.relation ≤ .sum := by decide
  obtain ⟨mid, here, later⟩ := leads.append
  -- the comparison does not go on with its left operand
  have parts : Ends .sum mid := by
    refine later.ends op.kind_writes fun m joint => ?_
    rw [← Kind.joint?_inScope op.kind scope, joint?_relation known] at joint
    rw [← Option.some.inj joint]
    decide
  refine .look ?_
  rw [if_neg (not_truth commits starts here)]
  refine .bind (first r mid here inScope widths parts) fun left last _ => .look ?_
  have kind := (Leads.current (r := { r with tokens := mid, last }) later op.kind_writes).1
  obtain ⟨u, behind, tokens, -, -, later⟩ := later.cons
  split
  · next none =>
    rw [kind] at none
    simp only [inScope, known] at none
    cases none
  · refine .bind (.advance tokens) fun _ last _ => ?_
    refine .bind (second _ rest later inScope widths (ends.mono le)) fun right last _ => ?_
    exact .succeed rfl trivial

theorem accepts_relation {place : Place}
    (h : Accepts (comparison expr) (place.scopeAt .sum) ws .relation ts) :
    Accepts (relation expr) (place.scopeAt .relation) ws .relation ts := by
  intro r rest leads inScope widths ends
  refine .currentScope ?_
  cases place with
  | outside =>
    have other : r.scope ≠ .index := by rw [inScope]; decide
    rw [if_neg other]
    exact .withScope (h { r with scope := .relational } rest leads rfl widths ends)
  | bracketed =>
    have index : r.scope = .index := inScope
    rw [if_pos index]
    exact h r rest leads index widths ends

theorem accepts_settled (inner : Accepts (boolExpr expr) scope ws .boolean ts) :
    Accepts (choice expr) scope ws .choice ts := by
  intro r rest leads inScope widths ends
  have le : Level.choice ≤ .boolean := by decide
  refine .bind (inner r rest leads inScope widths (ends.mono le)) fun cond last _ => ?_
  refine .ifAt (fun question => ?_) fun _ => .succeed rfl trivial
  have other := ends.ne (κ := .symbol .question) rfl (Nat.le_refl _)
  exact absurd question (Reading.current_ne (r := { r with tokens := rest, last }) other rfl
    (by simp) (by simp))

theorem accepts_chosen {cond yes no : List String}
    (first : Accepts (boolExpr expr) .general ws .boolean cond)
    (second : Accepts expr .general ws .choice yes) (third : Accepts expr .general ws .choice no) :
    Accepts (choice expr) .general ws .choice (cond ++ "?" :: yes ++ ":" :: no) := by
  intro r rest leads inScope widths ends
  rw [List.append_assoc] at leads
  obtain ⟨mid, here, later⟩ := leads.append
  have asks : Ends .boolean mid := later.ends_symbol .question (by simp [Kind.joint?]; decide)
  refine .bind (first r mid here inScope widths asks) fun cond last _ => ?_
  have question := Leads.symbol (r := { r with tokens := mid, last }) .question later
  obtain ⟨u, behind, tokens, -, -, later⟩ := later.cons
  refine .ifAt (fun _ => ?_) fun other => absurd question other
  obtain ⟨mid', here', later⟩ := later.append
  have parts : Ends .choice mid' := later.ends_symbol .colon (by simp [Kind.joint?])
  refine .bind (.advance tokens) fun _ last _ => ?_
  refine .bind (second _ mid' here' inScope widths parts) fun yes last _ => ?_
  have colon := Leads.symbol (r := { r with tokens := mid', last }) .colon later
  have colon : ({ r with tokens := mid', last } : Reading).current.kind = .symbol .colon := by
    rw [colon]
    show (Kind.symbol .colon).inScope r.scope = _
    rw [inScope]
    rfl
  obtain ⟨v, behind', tokens', -, -, later⟩ := later.cons
  refine .bind (.expect colon tokens') fun _ last _ => ?_
  refine .bind (third _ rest later inScope widths ends) fun no last _ => ?_
  exact .succeed rfl trivial

end Levels

/-! ## All levels -/

/-- The parser of a level, over the parser of whole expressions. -/
def atLevel : Level → Parse Expr → Parse Expr
  | .choice => choice
  | .boolean => boolExpr
  | .leading => boolFactor
  | .relation => relation
  | .sum => sum
  | .product => product
  | .sign => factor
  | .power => power
  | .atom => atom

/-- A chain is taken by the parser of its level. -/
theorem accepts_chain {n : Level} (chains : n.Chains) {expr : Parse Expr} {place : Place}
    {ws : Widths} {first : List String} {items : List (Operator × List String)}
    (head : Accepts (atLevel n.tighter expr) (place.scopeAt n.tighter) ws n.tighter first)
    (levels : ∀ i ∈ items, i.1.level = n)
    (operands : ∀ i ∈ items,
      Accepts (atLevel n.tighter expr) (place.scopeAt n.tighter) ws n.tighter i.2) :
    Accepts (atLevel n expr) (place.scopeAt n) ws n
      (first ++ items.flatMap fun i => i.1.spelling :: i.2) := by
  have other : n ≠ .relation := by rcases chains with rfl | rfl | rfl | rfl <;> decide
  rw [place.scopeAt_tighter other] at head operands
  rcases chains with rfl | rfl | rfl | rfl
  · refine accepts_leftAssoc Kind.boolOp? ?_ ?_ (by decide) head levels operands
    · intro op level
      cases op <;> first | rfl | cases level
    · intro k op found
      unfold Kind.boolOp? at found
      split at found <;> first | rfl | cases found
  · refine accepts_leftAssoc Kind.sumOp? ?_ ?_ (by decide) head levels operands
    · intro op level
      cases op <;> first | rfl | cases level
    · intro k op found
      unfold Kind.sumOp? at found
      split at found <;> first | rfl | cases found
  · refine accepts_leftAssoc Kind.productOp? ?_ ?_ (by decide) head levels operands
    · intro op level
      cases op <;> first | rfl | cases level
    · intro k op found
      unfold Kind.productOp? at found
      split at found <;> first | rfl | cases found
  · refine accepts_leftAssoc Kind.powerOp? ?_ ?_ (by decide) head levels operands
    · intro op level
      cases op <;> first | rfl | cases level
    · intro k op found
      unfold Kind.powerOp? at found
      split at found <;> first | rfl | cases found

/-- A sentence that is shorter than the depth is taken as a whole expression. -/
theorem accepts_nested {place : Place} {ws : Widths} {ts : List String} {depth : Nat}
    (h : ∀ depth, ts.length ≤ depth → Accepts (choice (expressionUpTo depth))
      (place.scopeAt .choice) ws .choice ts) (shorter : ts.length < depth) :
    Accepts (expressionUpTo depth) (place.scopeAt .choice) ws .choice ts := by
  cases depth with
  | zero => cases shorter
  | succ depth => exact h depth (Nat.le_of_lt_succ shorter)

/-- Every sentence of the predictive productions is taken by the parser of its level. -/
theorem accepts_of_derives {ws : Widths} {place : Place} {n : Level} {ts : List String}
    (h : Derives .predictive ws place n ts) : ∀ depth, ts.length ≤ depth →
      Accepts (atLevel n (expressionUpTo depth)) (place.scopeAt n) ws n ts := by
  -- on the sentence: a part that is nested as a whole expression is shorter by its delimiters, so
  -- one level of nesting less is enough for it
  induction h with
  | constant proper => exact fun _ _ => accepts_constant proper
  | group _ inner =>
    intro depth short
    simp only [List.length_append, List.length_cons, List.length_nil] at short
    exact accepts_group (accepts_nested inner (by omega))
  | name names => exact fun _ _ => accepts_name names
  | bit names vector _ inner =>
    intro depth short
    simp only [List.length_append, List.length_cons, List.length_nil] at short
    rw [List.append_assoc]
    exact accepts_bit names vector (accepts_nested inner (by omega))
  | @range place p high low names vector _ _ first second =>
    intro depth short
    simp only [List.length_append, List.length_cons, List.length_nil] at short
    have highShort : high.length < depth := by omega
    have lowShort : low.length < depth := by omega
    have whole : Accepts (atom (expressionUpTo depth)) (place.scopeAt .atom) ws .atom _ :=
      accepts_range names vector (accepts_nested first highShort) (accepts_nested second lowShort)
    have same : p.texts ++ ("[" :: (high ++ ":" :: low) ++ ["]"]) =
        p.texts ++ "[" :: high ++ ":" :: low ++ ["]"] := by simp
    rw [← same]
    exact whole
  | @chain place n first items chains _ levels _ head operands =>
    intro depth short
    rw [List.length_append] at short
    refine accepts_chain chains (head depth (by omega)) levels fun i hi => ?_
    refine operands i hi depth ?_
    have part : (i.1.spelling :: i.2).length ≤ (items.flatMap fun i => i.1.spelling :: i.2).length :=
      (List.sublist_flatten_of_mem (List.mem_map_of_mem
        (f := fun i : Operator × List String => i.1.spelling :: i.2) hi)).length_le
    rw [List.length_cons] at part
    omega
  | @unsigned place ts sentence inner =>
    intro depth short
    rw [← place.scopeAt_tighter (n := .sign) (by decide)]
    exact accepts_unsigned sentence.starts (inner depth short)
  | @signed place op ts sign _ inner =>
    intro depth short
    rw [← place.scopeAt_tighter (n := .sign) (by decide)]
    exact accepts_signed sign (inner depth (Nat.le_of_succ_le short))
  | truth form proper => exact fun _ _ => accepts_relation (accepts_truth form proper)
  | uncompared sentence commits inner =>
    exact fun depth short =>
      accepts_relation (accepts_uncompared commits sentence.starts (inner depth short))
  | @compared place op left right level sentence _ commits outside first second =>
    intro depth short
    rw [List.length_append, List.length_cons] at short
    refine accepts_relation (accepts_compared commits sentence.starts ?_ (first depth (by omega))
      (second depth (by omega)))
    cases op <;> first | rfl | (rw [outside rfl rfl]; rfl) | cases level
  | @positive place ts sentence starts inner =>
    intro depth short
    rw [← place.scopeAt_tighter (n := .leading) (by decide)]
    exact accepts_positive sentence.starts (starts rfl) (inner depth short)
  | @negated place op ts negation _ inner =>
    intro depth short
    rw [← place.scopeAt_tighter (n := .leading) (by decide)]
    exact accepts_negated negation (inner depth (Nat.le_of_succ_le short))
  | @settled place ts _ inner =>
    intro depth short
    rw [← place.scopeAt_tighter (n := .choice) (by decide)]
    exact accepts_settled (inner depth short)
  | chosen _ _ _ first second third =>
    intro depth short
    simp only [List.length_append, List.length_cons] at short
    exact accepts_chosen (first depth (by omega)) (accepts_nested second (by omega))
      (accepts_nested third (by omega))

end Parse

/-! ## Whole expressions -/

theorem isSpelling_symbol (s : Symbol) : IsSpelling s.spelling := ⟨.symbol s, _, rfl, rfl⟩

theorem isSpelling_unary (op : UnaryOperator) (alone : op ≠ .paren) : IsSpelling op.spelling := by
  cases op with
  | paren => exact absurd rfl alone
  | neg => exact isSpelling_symbol .minus
  | bang => exact isSpelling_symbol .bang
  | not => exact ⟨.keyword .not, _, rfl, rfl⟩

theorem isSpelling_constant {value : Constant} (proper : value.Proper) : IsSpelling value.text :=
  let ⟨k, _, writes⟩ := Constant.kind_writes proper
  ⟨k, _, writes⟩

theorem isSpelling_path {p : Path} (names : p.Lexical) : ∀ t ∈ p.texts, IsSpelling t := by
  have name : ∀ s ∈ p.segments, IsSpelling s.name := fun s hs => ⟨.ident, _, rfl, names s hs⟩
  refine List.forall_mem_cons.mpr ⟨name _ List.mem_cons_self, fun t ht => ?_⟩
  obtain ⟨s, hs, ht⟩ := List.mem_flatMap.mp ht
  rcases List.mem_pair.mp ht with rfl | rfl
  · exact isSpelling_symbol .dot
  · exact name s (List.mem_cons_of_mem _ hs)

theorem Path.lexical_ident {s : String} (span : Span) (h : IsName s) :
    (Path.mk ⟨s, span⟩ []).Lexical :=
  List.forall_mem_singleton.mpr h

namespace Derives

variable {g : Productions} {ws : Widths} {place : Place} {n : Level} {ts : List String}

/-- Sentences are made of the spellings of tokens. -/
theorem spellings (h : Derives g ws place n ts) : ∀ t ∈ ts, IsSpelling t := by
  have symbol := isSpelling_symbol
  induction h with
  | constant proper => simpa using isSpelling_constant proper
  | group _ inner =>
    simp only [List.cons_append, List.forall_mem_cons, List.forall_mem_append]
    exact ⟨symbol .lparen, inner, symbol .rparen, by simp⟩
  | name names => exact isSpelling_path names
  | bit names _ _ inner =>
    simp only [List.forall_mem_append, List.forall_mem_cons]
    exact ⟨⟨isSpelling_path names, symbol .lbracket, inner⟩, symbol .rbracket, by simp⟩
  | range names _ _ _ high low =>
    simp only [List.forall_mem_append, List.forall_mem_cons]
    exact ⟨⟨⟨isSpelling_path names, symbol .lbracket, high⟩, symbol .colon, low⟩,
      symbol .rbracket, by simp⟩
  | chain _ _ _ _ head operands =>
    refine List.forall_mem_append.mpr ⟨head, fun t ht => ?_⟩
    obtain ⟨i, hi, ht⟩ := List.mem_flatMap.mp ht
    rcases List.mem_cons.mp ht with rfl | ht
    · exact ⟨i.1.kind, _, i.1.kind_writes⟩
    · exact operands i hi t ht
  | unsigned _ inner => exact inner
  | signed sign _ inner =>
    refine List.forall_mem_cons.mpr ⟨isSpelling_unary _ ?_, inner⟩
    rcases sign with rfl | rfl <;> decide
  | truth _ proper => simpa using isSpelling_constant proper
  | uncompared _ _ inner => exact inner
  | @compared _ op _ _ _ _ _ _ _ left right =>
    exact List.forall_mem_append.mpr ⟨left,
      List.forall_mem_cons.mpr ⟨⟨op.kind, _, op.kind_writes⟩, right⟩⟩
  | positive _ _ inner => exact inner
  | negated negation _ inner =>
    refine List.forall_mem_cons.mpr ⟨isSpelling_unary _ ?_, inner⟩
    rcases negation with rfl | rfl <;> decide
  | settled _ inner => exact inner
  | chosen _ _ _ cond yes no =>
    simp only [List.forall_mem_append, List.forall_mem_cons]
    exact ⟨⟨cond, symbol .question, yes⟩, symbol .colon, no⟩

/-- A chain may have one operand only. -/
theorem alone (chains : n.Chains) (h : Derives g ws place n.tighter ts) :
    Derives g ws place n ts := by
  let items : List (Operator × List String) := []
  have whole : Derives g ws place n (ts ++ items.flatMap fun i => i.1.spelling :: i.2) :=
    .chain chains h (by simp [items]) (by simp [items])
  rwa [List.flatMap_nil, List.append_nil] at whole

theorem sum_of_atom (h : Derives g ws place .atom ts) : Derives g ws place .sum ts := by
  have power : Derives g ws place .power ts := alone (.inr (.inr (.inr rfl))) h
  have product : Derives g ws place .product ts := alone (.inr (.inr (.inl rfl))) (.unsigned power)
  exact alone (.inr (.inl rfl)) product

theorem choice_of_relation (h : Derives g ws place .relation ts)
    (starts : g = .predictive → ts.head? ≠ some "not") : Derives g ws place .choice ts := by
  have boolean : Derives g ws place .boolean ts := alone (.inl rfl) (.positive h starts)
  exact .settled boolean

theorem sum_of_constant (value : Constant) (proper : value.Proper) :
    Derives g ws place .sum [value.text] := sum_of_atom (.constant proper)

theorem sum_of_name {s : String} (name : IsName s) : Derives g ws place .sum [s] :=
  sum_of_atom (.name (Path.lexical_ident .zero name))

theorem sum_of_bit {s : String} (name : IsName s) (vector : ws.has s = true)
    (index : Derives g ws .bracketed .choice ts) :
    Derives g ws place .sum (s :: "[" :: ts ++ ["]"]) := by
  have text : (Path.mk ⟨s, .zero⟩ []).text = s := String.intercalate_singleton
  exact sum_of_atom (.bit (Path.lexical_ident .zero name) (by rwa [text]) index)

/-- The predictive productions have no sentences of their own. -/
theorem documented (h : Derives .predictive ws place n ts) : Derives .documented ws place n ts := by
  induction h with
  | constant proper => exact .constant proper
  | group _ inner => exact .group inner
  | name names => exact .name names
  | bit names vector _ inner => exact .bit names vector inner
  | range names vector _ _ high low => exact .range names vector high low
  | chain chains _ levels _ head operands => exact .chain chains head levels operands
  | unsigned _ inner => exact .unsigned inner
  | signed sign _ inner => exact .signed sign inner
  | truth form proper => exact .truth form proper
  | uncompared _ _ inner => exact .uncompared inner trivial
  | compared level _ _ _ _ left right => exact .compared level left right trivial (by simp)
  | positive _ _ inner => exact .positive inner (by simp)
  | negated negation _ inner => exact .negated negation inner
  | settled _ inner => exact .settled inner
  | chosen _ _ _ cond yes no => exact .chosen cond yes no

end Derives

/-- Tokens that are canonical, up to the end of their source, are accepted as a whole if they are a
sentence of the predictive productions. -/
theorem Parse.wholeExpression_iff {r : Reading} {span : Span}
    (canonical : ∀ u ∈ r.tokens, u.Canonical) (scope : r.scope = .general)
    (stop : r.stop = .eof span) : (∃ e, (wholeExpression r).1 = .ok e) ↔
      Derives .predictive r.widths .outside .choice (r.tokens.map (·.text.latin)) := by
  constructor
  · rintro ⟨e, found⟩
    obtain ⟨r', run⟩ : ∃ r', wholeExpression r = (.ok e, r') := ⟨_, Prod.ext found rfl⟩
    obtain ⟨e', r₁, parsed, ends⟩ := andThen_ok run
    obtain ⟨used, last, split, -, sentence⟩ := reads_expression r scope canonical e' r₁ parsed
    obtain ⟨t, r₂, eof, -⟩ := andThen_ok ends
    have behind : ∀ u ∈ r₁.tokens, u.Spelled := by
      intro u hu
      refine (canonical u ?_).spelled
      rw [split]
      exact List.mem_append_right _ hu
    -- nothing but the end of the source is read as the end
    obtain ⟨none, -⟩ := expect_eof behind eof
    rw [split, none, List.append_nil]
    exact sentence
  · intro sentence
    have leads : Leads r.tokens (r.tokens.map (·.text.latin)) [] :=
      ⟨r.tokens, (List.append_nil _).symm, rfl, canonical⟩
    have ends : Ends .choice [] := fun u hu => by cases hu
    obtain ⟨e, last, run, -⟩ : Succeeds expression r [] :=
      Yields.remaining (f := fun n => expressionUpTo (n + 1))
        (accepts_of_derives sentence r.tokens.length (by simp) r [] leads scope rfl ends)
    have eof : ({ r with tokens := [], last } : Reading).current.kind = .eof := by
      simp only [Reading.current, stop]
      rfl
    have done : Parse.expect .eof .endOfExpression { r with tokens := [], last } =
        (.ok ({ r with tokens := [], last } : Reading).current, { r with tokens := [], last }) := by
      rw [Parse.expect, if_pos eof]
      rfl
    refine ⟨e, ?_⟩
    rw [wholeExpression, andThen_eq run, andThen_eq done]
    rfl

/-- A sentence of the documented productions, written with spaces between its tokens, is accepted
exactly if the predictive productions have it as well. -/
theorem Expr.parse_spaced_iff {ws : Widths} {ts : List String} {f : SourceFile}
    (sentence : Derives .documented ws .outside .choice ts)
    (written : f.content = Bytes.ofString (String.intercalate " " ts)) :
    (∃ e, (Expr.parse (.ofFile f) ws).1 = .ok e) ↔ Derives .predictive ws .outside .choice ts := by
  have scanned := Stream.scan_spaced f.id sentence.spellings 0 [] (.inl rfl)
  rw [List.nil_append, ← written] at scanned
  have stream : Stream.ofCursor (.ofFile f) = Stream.scan f.id 0 f.content := by
    simp [Stream.ofCursor, Cursor.ofFile, Cursor.rest, Bytes.slice]
  rw [← stream] at scanned
  obtain ⟨texts, canonical, span, stop⟩ := scanned
  rw [Expr.parse, Parse.wholeExpression_iff canonical rfl stop]
  show Derives _ _ _ _ ((Stream.ofCursor (.ofFile f)).tokens.map (·.text.latin)) ↔ _
  rw [texts]

/-- A vector to take bits of. -/
def oneVector : Widths := [("foo", .literal 8)]

/-- A comparison with a bit of a vector. -/
def bitCompared : List String := ["a", "<=", "foo", "[", "3", "]"]

theorem isName_a : IsName "a" := ⟨⟨'a', [], by decide, by decide, by simp⟩, by decide⟩

theorem isName_b : IsName "b" := ⟨⟨'b', [], by decide, by decide, by simp⟩, by decide⟩

theorem isName_foo : IsName "foo" :=
  ⟨⟨'f', ['o', 'o'], by decide, by decide, List.all_eq_true.mp (by decide)⟩, by decide⟩

theorem parse_spaced_iff_bitCompared :
    ∃ e, (Expr.parse (.ofFile ⟨0, "", Bytes.ofString (String.intercalate " " bitCompared), 0⟩)
      oneVector).1 = .ok e := by
  have three : Derives .predictive oneVector .bracketed .sum ["3"] :=
    .sum_of_constant ⟨.int, "3"⟩ ⟨List.all_eq_true.mp (by decide), by decide⟩
  have index : Derives .predictive oneVector .bracketed .choice ["3"] :=
    .choice_of_relation (.uncompared three ⟨by decide, by decide⟩) (by simp)
  have bit : Derives .predictive oneVector .outside .sum ["foo", "[", "3", "]"] :=
    .sum_of_bit isName_foo (by decide) index
  have less : Operator.le.level = .relation := rfl
  have whole : Derives .predictive oneVector .outside .choice bitCompared :=
    .choice_of_relation
      (.compared less (.sum_of_name isName_a) bit ⟨by decide, by decide⟩ (by simp))
      fun _ => by decide
  exact (Expr.parse_spaced_iff whole.documented rfl).mpr whole

/-- A truth value that is compared, where it stands first. -/
def truthFirst : List String := ["true", "==", "a"]

/-- An index that compares by a symbol with two readings. -/
def indexCompared : List String := ["foo", "[", "a", "<=", "b", "]"]

/-- Documented sentences that are rejected: a relation that starts with a truth value ends there,
and between brackets `<=` does not compare. -/
theorem documented_rejected :
    (Derives .documented [] .outside .choice truthFirst ∧
      ¬∃ e, (Expr.parse (.ofFile ⟨0, "", Bytes.ofString (String.intercalate " " truthFirst), 0⟩)
        []).1 = .ok e) ∧
    Derives .documented oneVector .outside .choice indexCompared ∧
      ¬∃ e, (Expr.parse (.ofFile ⟨0, "", Bytes.ofString (String.intercalate " " indexCompared), 0⟩)
        oneVector).1 = .ok e := by
  have rejected {c : Cursor} {ws : Widths} (h : (Expr.parse c ws).1.isOk = false) :
      ¬∃ e, (Expr.parse c ws).1 = .ok e := by
    rintro ⟨e, parsed⟩
    rw [parsed] at h
    cases h
  have same : Operator.eq.level = .relation := rfl
  have less : Operator.le.level = .relation := rfl
  refine ⟨⟨?_, rejected (by decide +kernel)⟩, ?_, rejected (by decide +kernel)⟩
  · have truth : Derives .documented [] .outside .sum ["true"] :=
      .sum_of_constant ⟨.bool, "true"⟩ (.inl rfl)
    exact .choice_of_relation (.compared same truth (.sum_of_name isName_a) trivial (by simp))
      (by simp)
  · have index : Derives .documented oneVector .bracketed .choice ["a", "<=", "b"] :=
      .choice_of_relation (.compared less (.sum_of_name isName_a) (.sum_of_name isName_b)
        trivial (by simp)) (by simp)
    have bit : Derives .documented oneVector .outside .sum indexCompared :=
      .sum_of_bit isName_foo (by decide) index
    exact .choice_of_relation (.uncompared bit trivial) (by simp)

end CircuitCompiler
