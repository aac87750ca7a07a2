import CircuitCompiler.Proofs.TrackedExpr

/-!
# Components in other places

The grammar of components tracks itself, part by part. Braces are opened and closed by port blocks,
architectures and raw blocks only, each for itself.
-/

namespace CircuitCompiler.Parse

variable {m : Relocation} {n i : Nat} {r : Reading}

/-! ## Declarations -/

/-- The value of a width is left for the next step to take. -/
theorem widthValue_ensures :
    Ensures (fun _ r' => r'.current.kind.isBrace = false) widthValue r := by
  refine .look ?_
  split
  · next form literal =>
    split
    · split
      · exact .succeed (by rw [literal]; rfl)
      · exact .fail _ _
    · exact .unexpected _
  · next name => exact .succeed (by rw [name]; rfl)
  · exact .unexpected _

theorem tracks_widthValue : Tracks m n 0 i i id widthValue widthValue r := by
  refine .look ?_
  simp only [Relocation.token_kind]
  split
  · split
    · simp only [Relocation.token_value]
      split
      · exact .succeed rfl
      · exact .fail _ _
    · exact .unexpected _
  · exact .succeed rfl
  · exact .unexpected _

theorem tracks_width (flat : r.current.kind.isBrace = false) :
    Tracks m n 1 i i id width width r := by
  refine .bind (.advance flat) fun _ r _ => .bind tracks_widthValue fun w r value => ?_
  refine .bind (.advance (widthValue_ensures _ _ value)) fun _ r _ => ?_
  exact .bind (.expect rfl) fun _ r _ => .succeed rfl

theorem tracks_optionalWidth : Tracks m n 0 i i id optionalWidth optionalWidth r :=
  .ifAt (fun opens => (tracks_width (by rw [opens]; rfl)).mono (Nat.le_refl n) (Nat.zero_le 1))
    (.succeed rfl)

theorem tracks_declareType {type : DataType} {name : String} {w : Width} :
    Tracks m n 0 i i id (declareType type name w) (declareType type name w) r :=
  .ite (fun _ => .declareWidth) (.succeed rfl)

theorem dataType?_flat {κ : Kind} {type : DataType} (h : κ.dataType? = some type) :
    κ.isBrace = false := by
  unfold Kind.dataType? at h
  split at h <;> first | rfl | cases h

theorem follows_typedName : Follows m n m.declarator typedName typedName := by
  intro i r
  refine .look ?_
  simp only [Relocation.token_kind]
  split
  · exact .unexpected _
  · next type found =>
    refine .bind (.advance (dataType?_flat found)) fun _ r _ => .bind (.expect rfl) fun n r _ => ?_
    refine .bind .declare fun _ r _ => .bind tracks_optionalWidth fun w r _ => .lastSpan ?_
    refine .bind tracks_declareType fun _ r _ => .succeed ?_
    simp [Relocation.declarator, m.cover]

theorem follows_generic : Follows m n m.item generic generic := by
  intro i r
  refine .look (.bind (follows_typedName i r) fun d r _ => ?_)
  refine .bind (.expect rfl) fun _ r _ => .lastSpan (.succeed ?_)
  simp [Relocation.item, Relocation.decl, Relocation.role, Relocation.declarator, Declarator.decl,
    m.cover]

theorem direction?_flat {κ : Kind} {dir : Direction} (h : κ.direction? = some dir) :
    κ.isBrace = false := by
  unfold Kind.direction? at h
  split at h <;> first | rfl | cases h

theorem follows_port : Follows m n m.decl port port := by
  intro i r
  refine .look ?_
  simp only [Relocation.token_kind]
  split
  · exact .unexpected _
  · next dir found =>
    refine .bind (.advance (direction?_flat found)) fun _ r _ => ?_
    refine .bind (follows_typedName i r) fun d r _ => .bind (.expect rfl) fun _ r _ => .succeed ?_
    simp [Relocation.decl, Relocation.role, Relocation.declarator, Declarator.decl, m.cover]

theorem tracks_ports (flat : r.current.kind.isBrace = false) :
    Tracks m n 1 i i m.item ports ports r := by
  refine .bind (.advance flat) fun word r _ => .bind .expect_open fun _ r _ => ?_
  refine .bind (.manyUntil fun n' _ _ r => follows_port (i + 1) r) fun ds r closed => ?_
  refine .bind (.advance_close (manyUntil_ensures _ _ closed)) fun close r _ => .succeed ?_
  simp [Relocation.item, m.cover]

theorem follows_setting : Follows m n m.setting setting setting := by
  intro i r
  refine .look ?_
  simp only [Relocation.token_kind]
  split
  · next form found =>
    exact .bind (.advance (constForm?_flat found)) fun _ r _ => .succeed rfl
  · refine .ite (fun name => ?_) (.unexpected _)
    exact .bind (.advance (by rw [name]; rfl)) fun _ r _ => .succeed rfl

theorem tracks_plainDecl {role : Role} (plain : m.role role = role)
    (flat : r.current.kind.isBrace = false) :
    Tracks m n 1 i i m.stmt (plainDecl role) (plainDecl role) r := by
  refine .bind (.advance flat) fun word r _ => .bind (follows_typedName i r) fun d r _ => ?_
  refine .lastSpan (.bind (.expect rfl) fun _ r _ => .succeed ?_)
  simp [Relocation.stmt, Relocation.decl, Relocation.declarator, Declarator.decl, m.cover, plain]

theorem tracks_constDecl (flat : r.current.kind.isBrace = false) :
    Tracks m n 1 i i m.stmt constDecl constDecl r := by
  refine .bind (.advance flat) fun word r _ => .bind (follows_typedName i r) fun d r _ => ?_
  refine .bind (.expect rfl) fun _ r _ => .bind (follows_setting i r) fun value r _ => ?_
  refine .lastSpan (.bind (.expect rfl) fun _ r _ => .succeed ?_)
  simp [Relocation.stmt, Relocation.decl, Relocation.role, Relocation.declarator, Declarator.decl,
    m.cover]

/-! ## Instances and assignments -/

theorem follows_bindingsUpTo (fuel fuel' : Nat) (bound : n ≤ fuel') :
    Follows m n (List.map m.binding) (bindingsUpTo fuel) (bindingsUpTo fuel') := by
  induction fuel generalizing n fuel' with
  | zero => exact fun i r => .fail _ _
  | succ fuel ih =>
    intro i r
    refine .ofFuel bindingsUpTo bound fun fuel' bound => ?_
    refine .bind (.expect rfl) fun name r _ => .bind (.expect rfl) fun _ r _ => ?_
    refine .bind (follows_setting i r) fun value r _ => .ifAt (fun comma => ?_) (.succeed rfl)
    refine .bind (.advance (by rw [comma]; rfl)) fun _ r _ => ?_
    exact .bind (ih fuel' (by omega) i r) fun rest r _ => .succeed rfl

theorem tracks_bindings : Tracks m n 0 i i (List.map m.binding) bindings bindings r := by
  refine .ifAt (fun _ => .succeed rfl) (.fueled bindingsUpTo bindingsUpTo ?_)
  intro fuel n' _ bound
  exact (follows_bindingsUpTo _ fuel bound i r).mono (Nat.le_refl n') (Nat.zero_le 1)

theorem tracks_instanceOf {type : Segment} (flat : r.current.kind.isBrace = false) :
    Tracks m n 1 i i m.stmt (instanceOf type) (instanceOf (m.segment type)) r := by
  refine .bind (.advance flat) fun name r _ => .bind .declare fun _ r _ => ?_
  refine .bind (.expect rfl) fun _ r _ => .bind (.expect rfl) fun _ r _ => ?_
  refine .bind (.expect rfl) fun built r _ => .ite (fun _ => ?_) (.fail _ _)
  refine .bind (.expect rfl) fun _ r _ => .bind tracks_bindings fun bs r _ => ?_
  refine .bind (.expect rfl) fun _ r _ => .bind (.expect rfl) fun semi r _ => .succeed ?_
  simp [Relocation.stmt, Relocation.inst, Relocation.segment, m.cover]

theorem tracks_assignTo {left : Expr} (flat : r.current.kind.isBrace = false) :
    Tracks m n 1 i i m.stmt (assignTo left) (assignTo (m.expr left)) r := by
  refine .bind (.advance flat) fun _ r _ => .bind (follows_expression i r) fun right r _ => ?_
  refine .bind (.expect rfl) fun semi r _ => .succeed ?_
  simp [Relocation.stmt, m.cover]

theorem follows_assignOrInstance : Follows m n m.stmt assignOrInstance assignOrInstance := by
  intro i r
  refine .bind (follows_target i r) fun left r _ => .look ?_
  simp only [Relocation.token_kind]
  split
  · next assign =>
    exact (tracks_assignTo (by rw [assign]; rfl)).mono (Nat.le_refl _) (Nat.zero_le 1)
  · next name =>
    cases left with
    | ref p =>
      obtain ⟨type, tail⟩ := p
      cases tail with
      | nil => exact (tracks_instanceOf (by rw [name]; rfl)).mono (Nat.le_refl _) (Nat.zero_le 1)
      | cons => exact .fail _ _
    | _ => exact .fail _ _
  · exact .unexpected _

/-! ## Raw blocks -/

theorem tracks_blockHeader {kind : BlockKind} (fuel fuel' : Nat) (bound : n ≤ fuel') :
    Tracks m n 0 i i id (blockHeader kind fuel) (blockHeader kind fuel') r := by
  induction fuel generalizing n fuel' r with
  | zero => exact .fail _ _
  | succ fuel ih =>
    refine .ofFuel (blockHeader kind) bound fun fuel' bound => .look ?_
    simp only [Relocation.token_kind]
    split
    · exact .succeed rfl
    · exact .unexpected _
    · exact .unexpected _
    · exact .unexpected _
    · exact .unexpected _
    · next lbrace _ _ rbrace _ =>
      refine .bind (.advance ?_) fun _ r _ => ih fuel' (by omega)
      simp [Kind.isBrace, show r.current.kind ≠ _ from lbrace, show r.current.kind ≠ _ from rbrace]

/-- The words of a raw block end at its brace. -/
theorem blockHeader_ensures {kind : BlockKind} {fuel : Nat} :
    Ensures (fun _ r' => r'.current.kind = .symbol .lbrace) (blockHeader kind fuel) r := by
  induction fuel generalizing r with
  | zero => exact .fail _ _
  | succ fuel ih =>
    refine .look ?_
    split
    · next opens => exact .succeed opens
    · exact .unexpected _
    · exact .unexpected _
    · exact .unexpected _
    · exact .unexpected _
    · exact .bind fun _ _ _ => ih

/-- A raw block closes as many braces as are open in it. -/
theorem tracks_blockBody {kind : BlockKind} {opening opening' : Span} (fuel fuel' : Nat)
    (bound : n ≤ fuel') (depth : Nat) :
    Tracks m n 0 (i + depth) i id (blockBody kind opening fuel depth)
      (blockBody kind opening' fuel' depth) r := by
  induction fuel generalizing n fuel' depth r with
  | zero =>
    cases depth with
    | zero =>
      simp only [blockBody]
      exact .succeed rfl
    | succ depth => exact .fail _ _
  | succ fuel ih =>
    refine .ofFuel (blockBody kind opening' · depth) bound fun fuel' bound => ?_
    cases depth with
    | zero => exact .succeed rfl
    | succ depth =>
      refine .look ?_
      simp only [Relocation.token_kind]
      split
      · exact .failHere _
      · exact .failHere _
      · next opens =>
        refine .bind (.advance_open opens) fun _ r _ => ?_
        exact ih fuel' (by omega) (depth + 2)
      · next closes =>
        refine .bind (.advance_close closes) fun _ r _ => ?_
        exact ih fuel' (by omega) depth
      · next lbrace rbrace =>
        refine .bind (.advance ?_) fun _ r _ => ih fuel' (by omega) (depth + 1)
        simp [Kind.isBrace, show r.current.kind ≠ _ from lbrace,
          show r.current.kind ≠ _ from rbrace]

theorem tracks_block {kind : BlockKind} (flat : r.current.kind.isBrace = false) :
    Tracks m n 1 i i m.stmt (block kind) (block kind) r := by
  refine .bind (.advance flat) fun word r _ => ?_
  have head : Tracks m (n - 1) 0 i i id (blockHead kind) (blockHead kind) r :=
    .fueled (blockHeader kind) (blockHeader kind) fun fuel _ _ bound =>
      tracks_blockHeader _ fuel bound
  refine .bind head fun _ r headed => ?_
  have opens : r.current.kind = .symbol .lbrace := blockHeader_ensures _ _ headed
  refine .bind (.advance_open opens) fun opening r _ => ?_
  have rest : ∀ n, Tracks m n 0 (i + 1) i id (blockRest kind opening.span)
      (blockRest kind (m.token opening).span) r := fun n =>
    .fueled (blockBody kind opening.span · 1) (blockBody kind (m.span opening.span) · 1)
      fun fuel _ _ bound => tracks_blockBody _ fuel bound 1
  refine .bind (rest _) fun _ r _ => .lastSpan (.bind .sourceBetween fun body r _ => .succeed ?_)
  simp [Relocation.stmt, m.cover]

/-! ## Architectures -/

theorem follows_stmt : Follows m n m.stmt stmt stmt := by
  intro i r
  refine .look ?_
  simp only [Relocation.token_kind]
  split
  · next word => exact tracks_plainDecl rfl (by rw [word]; rfl)
  · next word => exact tracks_plainDecl rfl (by rw [word]; rfl)
  · next word => exact tracks_constDecl (by rw [word]; rfl)
  · next word => exact tracks_block (by rw [word]; rfl)
  · next word => exact tracks_block (by rw [word]; rfl)
  · next word => exact tracks_block (by rw [word]; rfl)
  · exact follows_assignOrInstance i r
  · exact .unexpected _

theorem tracks_archName : Tracks m n 0 i i (Option.map m.segment) archName archName r := by
  have named : r.current.kind.isBrace = false →
      Tracks m n 0 i i (Option.map m.segment)
        (do
          let _ ← advance
          succeed (some ⟨r.current.name, r.current.span⟩))
        (do
          let _ ← advance
          succeed (some ⟨r.current.name, m.span r.current.span⟩)) r :=
    fun flat => .bind (.advance flat) fun _ r _ => .succeed rfl
  refine .look ?_
  simp only [Relocation.token_kind, Relocation.token_name, Relocation.token_span]
  split
  · next word => exact named (by rw [word]; rfl)
  · next word => exact named (by rw [word]; rfl)
  · next word => exact named (by rw [word]; rfl)
  · exact .succeed rfl

theorem follows_arch : Follows m n m.item arch arch := by
  intro i r
  refine .look (.bind tracks_archName fun name? r _ => .bind (.expect rfl) fun _ r _ => ?_)
  refine .bind .expect_open fun _ r _ => ?_
  refine .bind (.manyUntil fun n' _ _ r => follows_stmt (i + 1) r) fun stmts r closed => ?_
  refine .bind (.advance_close (manyUntil_ensures _ _ closed)) fun close r _ => .succeed ?_
  cases name? with
  | none => simp [Relocation.item, Relocation.arch, m.cover, m.zero]
  | some s => simp [Relocation.item, Relocation.arch, Relocation.segment, m.cover]

theorem follows_item (name : String) (done : List Item) :
    Follows m n m.item (item name done) (item name (done.map m.item)) := by
  intro i r
  have ports? : (done.map m.item).any (·.ports?.isSome) = done.any (·.ports?.isSome) := by
    simp [List.any_map, Function.comp_def]
  have arch? : (done.map m.item).any (·.arch?.isSome) = done.any (·.arch?.isSome) := by
    simp [List.any_map, Function.comp_def]
  have body : Tracks m n 1 i i m.item
      (if done.any (·.arch?.isSome) then
        fail (.secondArchitecture name) r.current.span else arch)
      (if done.any (·.arch?.isSome) then
        fail (.secondArchitecture name) (m.span r.current.span) else arch) r :=
    .ite (fun _ => .fail _ _) (follows_arch i r)
  refine .look ?_
  simp only [Relocation.token_kind, Relocation.token_span, ports?, arch?]
  split
  · exact follows_generic i r
  · exact follows_generic i r
  · exact follows_generic i r
  · exact follows_generic i r
  · next word => exact .ite (fun _ => .fail _ _) (tracks_ports (by rw [word]; rfl))
  · exact body
  · exact body
  · exact body
  · exact body
  · exact .unexpected _

/-! ## Components -/

/-- The reading behind its next token. -/
def past (r : Reading) (u : Token) (rest : List Token) : Reading :=
  { r with tokens := rest, last := u.span }

/-- What taking a token of a kind means. -/
theorem expect_ok {κ : Kind} {wanted : Wanted} {t : Token} {r r' : Reading}
    (h : expect κ wanted r = (.ok t, r')) (more : κ ≠ .eof) (valid : κ ≠ .invalid) :
    ∃ u rest, r.tokens = u :: rest ∧ u.inScope r.scope = t ∧ t.kind = κ ∧ past r u rest = r' := by
  by_cases hk : r.current.kind = κ
  · cases ht : r.tokens with
    | nil => exact absurd ht (Reading.tokens_ne_nil hk more valid)
    | cons u rest =>
      simp only [expect, hk, if_true, advance, ht] at h
      cases h
      exact ⟨u, rest, rfl, (Reading.current_of_tokens ht).symm, hk, rfl⟩
  · simp only [expect, hk, if_false] at h
    have never : Ensures (fun _ _ => False) (unexpected wanted : Parse Token) r := .unexpected _
    exact (never t r' h).elim

/-- A token of the kind that is wanted is taken. -/
theorem expect_cons {κ : Kind} {wanted : Wanted} {u : Token} {rest : List Token} {r : Reading}
    (h : r.tokens = u :: rest) (kind : (u.inScope r.scope).kind = κ) :
    expect κ wanted r = (.ok (u.inScope r.scope), past r u rest) := by
  have now := Reading.current_of_tokens h
  simp only [expect, now, kind, if_true, advance, h]
  rfl

theorem advance_cons {u : Token} {rest : List Token} {r : Reading} (h : r.tokens = u :: rest) :
    advance r = (.ok (u.inScope r.scope), past r u rest) := by
  simp only [advance, h, Reading.current_of_tokens h]
  rfl

/-- The tokens of a component with a name: the word, the name, and a body between braces. -/
def Framed (name : String) (ts : List Token) : Prop :=
  ∃ word title opening body close, ts = word :: title :: opening :: (body ++ [close]) ∧
    word.kind = .keyword .component ∧ title.kind = .ident ∧ title.name = name ∧
    opening.kind = .symbol .lbrace ∧ Chunk.Shifts 0 0 body ∧ close.kind = .symbol .rbrace

/-- A component that is read from some tokens is read from the same tokens in other places, whatever
comes behind them. -/
theorem component_moved (m : Relocation) (file' : Nat) {file : Nat} {c : Component}
    {r r' : Reading}
    (source : r.source? = m.source?) (h : component file r = (.ok c, r')) :
    ∃ used, r.tokens = used ++ r'.tokens ∧ r'.stop = r.stop ∧ r'.scope = r.scope ∧
      r'.source? = r.source? ∧ Framed c.name used ∧ c.file = file ∧
      ∀ rest stop last,
        component file' { m.reading r (used.map m.token ++ rest) stop with last } =
          (.ok (m.component file' c), m.reading r' rest stop) := by
  obtain ⟨_, _, hword, h⟩ := andThen_ok h
  obtain ⟨_, _, hname, h⟩ := andThen_ok h
  obtain ⟨_, _, hopening, h⟩ := andThen_ok h
  obtain ⟨items, r₄, hitems, h⟩ := andThen_ok h
  obtain ⟨_, r₅, hclose, h⟩ := andThen_ok h
  cases h
  obtain ⟨word, _, ht₁, rfl, wordKind, rfl⟩ := expect_ok hword (by simp) (by simp)
  obtain ⟨name, _, rfl, rfl, nameKind, rfl⟩ := expect_ok hname (by simp) (by simp)
  obtain ⟨opening, inner, rfl, rfl, openKind, rfl⟩ := expect_ok hopening (by simp) (by simp)
  have closeKind : r₄.current.kind = _ := manyUntil_ensures _ _ hitems
  obtain ⟨close, behind, ht₄⟩ :=
    List.exists_cons_of_ne_nil (Reading.tokens_ne_nil closeKind (by simp) (by simp))
  rw [advance_cons ht₄] at hclose
  cases hclose
  -- the parts between the braces, for a second reading that can manage all of them
  have parts : ∀ r, Tracks m (inner.length + 1) 0 0 0 (List.map m.item)
      (manyUntil (.symbol .rbrace) (item name.name))
      (manyUntil (.symbol .rbrace) (item name.name)) r :=
    fun r => .manyUntil fun _ _ done r => follows_item name.name done 0 r
  obtain ⟨body, passes, runs⟩ := parts _ (by exact source) items r₄ hitems
  have split : inner = body ++ close :: behind := by rw [← ht₄]; exact passes.tokens
  obtain ⟨-, runs⟩ := runs close behind ht₄
  refine ⟨word :: name :: opening :: (body ++ [close]), ?_, passes.stop, passes.scope,
    passes.source?, ?_, rfl, ?_⟩
  · rw [ht₁, split]
    simp [past]
  · refine ⟨word, name, opening, body, close, rfl, ?_, ?_, rfl, ?_, passes.shifts, ?_⟩
    · exact Kind.eq_of_inScope_eq wordKind rfl
    · exact Kind.eq_of_inScope_eq nameKind rfl
    · exact Kind.eq_of_inScope_eq openKind rfl
    · rw [Reading.current_of_tokens ht₄] at closeKind
      exact Kind.eq_of_inScope_eq closeKind rfl
  · intro rest stop last
    have moved := runs (by rw [split, List.length_append, List.length_cons]; omega) rest stop
    have tokens : (word :: name :: opening :: (body ++ [close])).map m.token ++ rest =
        m.token word :: m.token name :: m.token opening ::
          (body.map m.token ++ m.token close :: rest) := by simp
    rw [tokens]
    refine Eq.trans (andThen_eq (expect_cons rfl (by exact wordKind))) ?_
    refine Eq.trans (andThen_eq (expect_cons rfl (by exact nameKind))) ?_
    refine Eq.trans (andThen_eq (expect_cons rfl (by exact openKind))) ?_
    refine Eq.trans (andThen_eq moved) ?_
    refine Eq.trans (andThen_eq (advance_cons rfl)) ?_
    simp only [Parse.succeed, Relocation.component, m.cover]
    rfl

end CircuitCompiler.Parse
