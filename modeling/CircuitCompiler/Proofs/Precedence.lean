import CircuitCompiler.Vhdl.Expr

/-!
# Reading VHDL expressions by precedence

How the tools behind the compiler group the operators of a VHDL expression. A reader goes through
the lexemes once and keeps a stack of what is still open: operators that wait for their right
operand, parentheses and bit selections. An operator closes those before it that are as tight as it
or tighter, so equal ones group to the left.

* `Tree`, `Tree.Fits`: expressions with the operators of VHDL, and those in which every operand is
  at a level that its operator admits;
* `State.step`, `readLexemes?`: one lexeme, and a whole expression;
* `readLexemes?_fits`: what is read fits;
* `readLexemes?_lexemes`: what fits is read back from its lexemes.
-/

namespace CircuitCompiler.Vhdl

/-! ## Expressions -/

/-- The binary operators of VHDL that expressions are rendered with. -/
inductive BinaryOperator where
  | and
  | or
  | nand
  | nor
  | xor
  | xnor
  | eq
  | ne
  | lt
  | le
  | gt
  | ge
  | add
  | sub
  | mul
  | div
  | mod
  | pow
  deriving DecidableEq, Repr

namespace BinaryOperator

def all : List BinaryOperator :=
  [and, or, nand, nor, xor, xnor, eq, ne, lt, le, gt, ge, add, sub, mul, div, mod, pow]

def spelling : BinaryOperator → String
  | and => "and"
  | or => "or"
  | nand => "nand"
  | nor => "nor"
  | xor => "xor"
  | xnor => "xnor"
  | eq => "="
  | ne => "/="
  | lt => "<"
  | le => "<="
  | gt => ">"
  | ge => ">="
  | add => "+"
  | sub => "-"
  | mul => "*"
  | div => "/"
  | mod => "mod"
  | pow => "**"

end BinaryOperator

/-- The levels of precedence, from the loosest to the tightest; a negation is as tight as a power.
-/
inductive Level where
  | logical
  | relation
  | sum
  | sign
  | product
  | power
  | primary
  deriving DecidableEq, Repr

namespace Level

def rank : Level → Nat
  | logical => 0
  | relation => 1
  | sum => 2
  | sign => 3
  | product => 4
  | power => 5
  | primary => 6

instance : LE Level := ⟨fun m n => m.rank ≤ n.rank⟩

instance (m n : Level) : Decidable (m ≤ n) := inferInstanceAs (Decidable (m.rank ≤ n.rank))

def tighter : Level → Level
  | logical => relation
  | relation => sum
  | sum => sign
  | sign => product
  | product => power
  | power | primary => primary

theorem le_trans {l m n : Level} (h : l ≤ m) (h' : m ≤ n) : l ≤ n := Nat.le_trans h h'

theorem logical_le (n : Level) : logical ≤ n := Nat.zero_le _

theorem le_primary (n : Level) : n ≤ primary := by
  cases n <;> decide

theorem le_tighter (n : Level) : n ≤ n.tighter := by
  cases n <;> decide

theorem tighter_le_iff {m n : Level} (h : m ≠ primary) : m.tighter ≤ n ↔ ¬n ≤ m := by
  cases m with
  | primary => exact absurd rfl h
  | _ => cases n <;> decide

end Level

def BinaryOperator.level : BinaryOperator → Level
  | and | or | nand | nor | xor | xnor => .logical
  | eq | ne | lt | le | gt | ge => .relation
  | add | sub => .sum
  | mul | div | mod => .product
  | pow => .power

theorem BinaryOperator.level_ne_primary (op : BinaryOperator) : op.level ≠ .primary := by
  cases op <;> decide

/-- A VHDL expression. A single bit is the range from itself to itself. -/
inductive Tree where
  | name (segments : List String)
  | const (value : Constant)
  | binary (op : BinaryOperator) (left right : Tree)
  | neg (operand : Tree)
  | not (operand : Tree)
  | paren (inner : Tree)
  | bits (target : List String) (high low : Tree)
  deriving DecidableEq, Repr

/-! ## Lexemes -/

/-- A word or a mark of an expression. -/
inductive Lexeme where
  | name (segments : List String)
  | const (value : Constant)
  | operator (op : BinaryOperator)
  | not
  | downto
  | opening
  | closing
  deriving DecidableEq, Repr

namespace Lexeme

/-- The words that are no names, and the marks. -/
def reserved : List (String × Lexeme) :=
  [("not", not), ("downto", downto), ("(", opening), (")", closing)] ++
    BinaryOperator.all.map fun op => (op.spelling, operator op)

/-- The lexeme of a reserved word or a mark; capital letters are as good as small ones. -/
def reserved? (word : String) : Option Lexeme :=
  (reserved.find? fun p => p.1.toList == word.toList.map Char.toLower).map Prod.snd

end Lexeme

/-- The words can be parts of a name. -/
def AreNames (segments : List String) : Prop := ∀ s ∈ segments, Lexeme.reserved? s = none

/-- The expression can stand where operands of a level are wanted, with its operators grouped by
precedence and names that are not reserved. -/
def Tree.Fits : Tree → Level → Prop
  | name segments, _ => AreNames segments
  | const _, _ => True
  | binary op left right, n => n ≤ op.level ∧ left.Fits op.level ∧ right.Fits op.level.tighter
  | neg operand, n => n ≤ .sign ∧ operand.Fits .product
  | not operand, n => n ≤ .power ∧ operand.Fits .primary
  | paren inner, _ => inner.Fits .logical
  | bits target high low, _ => AreNames target ∧ high.Fits .logical ∧ low.Fits .logical

instance (segments : List String) : Decidable (AreNames segments) :=
  inferInstanceAs (Decidable (∀ s ∈ segments, Lexeme.reserved? s = none))

instance Tree.decidableFits : (t : Tree) → (n : Level) → Decidable (t.Fits n)
  | name segments, _ => inferInstanceAs (Decidable (AreNames segments))
  | const _, _ => .isTrue trivial
  | binary op left right, n =>
    have := decidableFits left op.level
    have := decidableFits right op.level.tighter
    inferInstanceAs (Decidable (n ≤ op.level ∧ left.Fits op.level ∧ right.Fits op.level.tighter))
  | neg operand, n =>
    have := decidableFits operand .product
    inferInstanceAs (Decidable (n ≤ .sign ∧ operand.Fits .product))
  | not operand, n =>
    have := decidableFits operand .primary
    inferInstanceAs (Decidable (n ≤ .power ∧ operand.Fits .primary))
  | paren inner, _ => decidableFits inner .logical
  | bits target high low, _ =>
    have := decidableFits high .logical
    have := decidableFits low .logical
    inferInstanceAs (Decidable (AreNames target ∧ high.Fits .logical ∧ low.Fits .logical))

theorem Tree.Fits.mono {t : Tree} {m n : Level} (h : t.Fits n) (le : m ≤ n) : t.Fits m := by
  cases t with
  | name | const | paren | bits => exact h
  | binary op left right => exact ⟨Level.le_trans le h.1, h.2⟩
  | neg operand => exact ⟨Level.le_trans le h.1, h.2⟩
  | not operand => exact ⟨Level.le_trans le h.1, h.2⟩

/-- The lexemes that an expression is written with. -/
def Tree.lexemes : Tree → List Lexeme
  | name segments => [.name segments]
  | const c => [.const c]
  | binary op left right => left.lexemes ++ .operator op :: right.lexemes
  | neg operand => .operator .sub :: operand.lexemes
  | not operand => .not :: operand.lexemes
  | paren inner => .opening :: inner.lexemes ++ [.closing]
  | bits target high low =>
    .name target :: .opening :: high.lexemes ++
      (if low = high then [] else .downto :: low.lexemes) ++ [.closing]

/-! ## The reader -/

/-- What is open: an operator that waits for its right operand, or what a bracket has opened. -/
inductive Frame where
  | binary (left : Tree) (op : BinaryOperator)
  | neg
  | not
  | paren
  | index (target : List String)
  | range (target : List String) (high : Tree)

namespace Frame

/-- The level of an operator that waits. -/
def level? : Frame → Option Level
  | binary _ op => some op.level
  | neg => some .sign
  | not => some .power
  | paren | index _ | range .. => none

/-- The level that the operand must have. -/
def need (f : Frame) : Level :=
  match f.level? with
  | some n => n.tighter
  | none => .logical

/-- An operator with its operand. -/
def close : Frame → Tree → Tree
  | binary left op, t => .binary op left t
  | neg, t => .neg t
  | not, t => .not t
  | paren, t | index _, t | range .., t => t

theorem level?_ne_primary {f : Frame} {n : Level} (h : f.level? = some n) : n ≠ .primary := by
  cases f with
  | binary left op =>
    cases h
    exact op.level_ne_primary
  | neg | not => cases h; decide
  | paren | index | range => cases h

end Frame

/-- The level that the next operand must have. -/
def need : List Frame → Level
  | [] => .logical
  | f :: _ => f.need

/-- Closes the operators that are as tight as a level or tighter around an operand. -/
def reduce (n : Level) : List Frame → Tree → List Frame × Tree
  | [], t => ([], t)
  | f :: rest, t =>
    match f.level? with
    | some m => if n ≤ m then reduce n rest (f.close t) else (f :: rest, t)
    | none => (f :: rest, t)

/-- Where the reader stands: what is open, and the operand just read, if any. -/
structure State where
  stack : List Frame
  operand? : Option Tree

namespace State

/-- Goes on behind one lexeme. Where an operand is wanted, an operator in front of one must be as
tight as the operand has to be. -/
def step (s : State) (x : Lexeme) : Option State :=
  match s.operand?, x with
  | none, .name segments => some ⟨s.stack, some (.name segments)⟩
  | none, .const c => some ⟨s.stack, some (.const c)⟩
  | none, .opening => some ⟨.paren :: s.stack, none⟩
  | none, .operator .sub => if need s.stack ≤ .sign then some ⟨.neg :: s.stack, none⟩ else none
  | none, .not => if need s.stack ≤ .power then some ⟨.not :: s.stack, none⟩ else none
  | some t, .operator op =>
    let (stack, left) := reduce op.level s.stack t
    some ⟨.binary left op :: stack, none⟩
  | some (.name target), .opening => some ⟨.index target :: s.stack, none⟩
  | some t, .downto =>
    match reduce .logical s.stack t with
    | (.index target :: stack, high) => some ⟨.range target high :: stack, none⟩
    | _ => none
  | some t, .closing =>
    match reduce .logical s.stack t with
    | (.paren :: stack, inner) => some ⟨stack, some (.paren inner)⟩
    | (.index target :: stack, bit) => some ⟨stack, some (.bits target bit bit)⟩
    | (.range target high :: stack, low) => some ⟨stack, some (.bits target high low)⟩
    | _ => none
  | _, _ => none

def run (s : State) (xs : List Lexeme) : Option State := xs.foldlM step s

/-- The expression, where nothing but operators is open. -/
def result? (s : State) : Option Tree :=
  match s.operand? with
  | none => none
  | some t =>
    match reduce .logical s.stack t with
    | ([], t) => some t
    | _ => none

theorem run_append (s : State) (xs ys : List Lexeme) :
    s.run (xs ++ ys) = (s.run xs).bind fun s => s.run ys := by
  simp [run, List.foldlM_append, bind]

theorem run_cons (s : State) (x : Lexeme) (xs : List Lexeme) :
    s.run (x :: xs) = (s.step x).bind fun s => s.run xs := rfl

end State

def readLexemes? (xs : List Lexeme) : Option Tree := (State.run ⟨[], none⟩ xs).bind State.result?

/-! ## What is read fits -/

/-- A frame holds what fits. -/
def Frame.Sound : Frame → Prop
  | binary left op => left.Fits op.level
  | index target => AreNames target
  | range target high => AreNames target ∧ high.Fits .logical
  | neg | not | paren => True

/-- All frames hold what fits, and operators are where their level is wanted. -/
def Sound : List Frame → Prop
  | [] => True
  | f :: rest => f.Sound ∧ (∀ n, f.level? = some n → need rest ≤ n) ∧ Sound rest

theorem Frame.Sound.close {f : Frame} (sound : f.Sound) {n : Level} (h : f.level? = some n)
    {t : Tree} (fits : t.Fits f.need) : (f.close t).Fits n := by
  cases f with
  | binary left op =>
    cases h
    exact ⟨Nat.le_refl _, sound, fits⟩
  | neg =>
    cases h
    exact ⟨Nat.le_refl _, fits⟩
  | not =>
    cases h
    exact ⟨Nat.le_refl _, fits⟩
  | paren | index | range => cases h

/-- Closing operators keeps what fits, and what is left open is looser than the level. -/
theorem reduce_sound {n : Level} {stack : List Frame} {t : Tree} (sound : Sound stack)
    (fits : t.Fits (need stack)) (tight : t.Fits n) :
    Sound (reduce n stack t).1 ∧ (reduce n stack t).2.Fits (need (reduce n stack t).1) ∧
      (reduce n stack t).2.Fits n ∧ need (reduce n stack t).1 ≤ n := by
  induction stack generalizing t with
  | nil => exact ⟨sound, fits, tight, n.logical_le⟩
  | cons f rest ih =>
    rw [reduce]
    cases level : f.level? with
    | none =>
      have loose : f.need = .logical := by rw [Frame.need, level]
      exact ⟨sound, fits, tight, by rw [need, loose]; exact n.logical_le⟩
    | some m =>
      simp only
      by_cases le : n ≤ m
      · rw [if_pos le]
        have closed := sound.1.close level fits
        exact ih sound.2.2 (closed.mono (sound.2.1 m level)) (closed.mono le)
      · -- a looser operator waits on, and wants nothing tighter than the level
        rw [if_neg le]
        refine ⟨sound, fits, tight, ?_⟩
        rw [need, Frame.need, level]
        exact (Level.tighter_le_iff (Frame.level?_ne_primary level)).mpr le

/-- Closing operators around what was just read. -/
theorem reduce_primary {n : Level} {stack : List Frame} {t : Tree} (sound : Sound stack)
    (fits : t.Fits .primary) :
    Sound (reduce n stack t).1 ∧ (reduce n stack t).2.Fits n ∧ need (reduce n stack t).1 ≤ n := by
  obtain ⟨kept, -, fits, loose⟩ := reduce_sound sound (fits.mono (need stack).le_primary)
    (fits.mono n.le_primary)
  exact ⟨kept, fits, loose⟩

/-- The reader holds what fits, and the operand just read fits everywhere. -/
structure State.Sound (s : State) : Prop where
  stack : Vhdl.Sound s.stack
  operand : ∀ t, s.operand? = some t → t.Fits .primary

/-- The words of a name are not reserved. -/
def Lexeme.Free : Lexeme → Prop
  | name segments => AreNames segments
  | _ => True

theorem State.Sound.pushed {f : Frame} {stack : List Frame} (sound : Vhdl.Sound stack)
    (holds : f.Sound) (wanted : ∀ n, f.level? = some n → need stack ≤ n) :
    State.Sound ⟨f :: stack, none⟩ :=
  ⟨⟨holds, wanted, sound⟩, fun _ h => by cases h⟩

theorem State.Sound.taken {stack : List Frame} {t : Tree} (sound : Vhdl.Sound stack)
    (fits : t.Fits .primary) : State.Sound ⟨stack, some t⟩ := by
  refine ⟨sound, fun u h => ?_⟩
  cases h
  exact fits

theorem State.Sound.step {s s' : State} {x : Lexeme} (sound : s.Sound) (free : x.Free)
    (h : s.step x = some s') : s'.Sound := by
  obtain ⟨stack, operand⟩ := sound
  unfold State.step at h
  split at h
  · cases h
    exact .taken stack free
  · cases h
    exact .taken stack trivial
  · cases h
    exact .pushed stack trivial fun _ h => by cases h
  · split at h
    · next wanted =>
      cases h
      refine .pushed stack trivial fun n level => ?_
      cases level
      exact wanted
    · cases h
  · split at h
    · next wanted =>
      cases h
      refine .pushed stack trivial fun n level => ?_
      cases level
      exact wanted
    · cases h
  · next t op found =>
    -- what is left open behind the operator wants its level or a looser one
    cases h
    obtain ⟨kept, fits, loose⟩ := reduce_primary (n := op.level) stack (operand t found)
    refine .pushed kept fits fun n level => ?_
    cases level
    exact loose
  · next target found =>
    cases h
    exact .pushed stack (operand _ found) fun _ h => by cases h
  · next t found =>
    obtain ⟨kept, fits, -⟩ := reduce_primary (n := .logical) stack (operand t found)
    split at h
    · next target rest high closed =>
      cases h
      rw [closed] at kept fits
      exact .pushed kept.2.2 ⟨kept.1, fits⟩ fun _ h => by cases h
    · cases h
  · next t found =>
    obtain ⟨kept, fits, -⟩ := reduce_primary (n := .logical) stack (operand t found)
    split at h
    · next rest inner closed =>
      cases h
      rw [closed] at kept fits
      exact .taken kept.2.2 fits
    · next target rest bit closed =>
      cases h
      rw [closed] at kept fits
      exact .taken kept.2.2 ⟨kept.1, fits, fits⟩
    · next target high rest low closed =>
      cases h
      rw [closed] at kept fits
      exact .taken kept.2.2 ⟨kept.1.1, kept.1.2, fits⟩
    · cases h
  · cases h

theorem State.Sound.run {xs : List Lexeme} : ∀ {s s' : State}, s.Sound → (∀ x ∈ xs, x.Free) →
    s.run xs = some s' → s'.Sound := by
  induction xs with
  | nil =>
    intro s s' sound _ h
    cases h
    exact sound
  | cons x rest ih =>
    intro s s' sound free h
    rw [State.run_cons] at h
    obtain ⟨next, first, later⟩ := Option.bind_eq_some_iff.mp h
    exact ih (sound.step (free x List.mem_cons_self) first)
      (fun y hy => free y (List.mem_cons_of_mem x hy)) later

/-- What is read has its operators grouped by precedence. -/
theorem readLexemes?_fits {xs : List Lexeme} {t : Tree} (free : ∀ x ∈ xs, x.Free)
    (h : readLexemes? xs = some t) : t.Fits .logical := by
  obtain ⟨s, run, result⟩ := Option.bind_eq_some_iff.mp h
  have start : State.Sound ⟨[], none⟩ := ⟨trivial, fun _ h => by cases h⟩
  obtain ⟨stack, operand⟩ := start.run free run
  unfold State.result? at result
  split at result
  · cases result
  · next u found =>
    obtain ⟨-, fits, -⟩ := reduce_primary (n := .logical) stack (operand u found)
    split at result
    · next closed =>
      cases result
      rw [closed] at fits
      exact fits
    · cases result

/-! ## What fits is read back -/

/-- Nothing is closed where the level is wanted. -/
theorem reduce_of_need {n : Level} {stack : List Frame} (t : Tree) (loose : need stack ≤ n) :
    reduce n stack t = (stack, t) := by
  cases stack with
  | nil => rfl
  | cons f rest =>
    rw [reduce]
    cases level : f.level? with
    | none => rfl
    | some m =>
      rw [need, Frame.need, level] at loose
      simp only
      rw [if_neg ((Level.tighter_le_iff (Frame.level?_ne_primary level)).mp loose)]

/-- An operator is closed around an operand at its level or a looser one. -/
theorem reduce_close {n m : Level} {f : Frame} (level : f.level? = some m) (le : n ≤ m)
    (stack : List Frame) (t : Tree) : reduce n (f :: stack) t = reduce n stack (f.close t) := by
  rw [reduce, level]
  simp only
  rw [if_pos le]

/-- The reader has read `t` behind the stack, but operators of it may be open yet: they are closed
by whatever may follow `t`. -/
def Holds (stack : List Frame) (t : Tree) (s : State) : Prop :=
  ∃ u, s.operand? = some u ∧ ∀ n, t.Fits n → reduce n s.stack u = reduce n stack t

theorem Holds.taken (stack : List Frame) (t : Tree) : Holds stack t ⟨stack, some t⟩ :=
  ⟨t, rfl, fun _ _ => rfl⟩

/-- What is read behind an operator that waits is its operand. -/
theorem Holds.closed {f : Frame} {m : Level} {stack : List Frame} {t : Tree} {s : State}
    (h : Holds (f :: stack) t s) (level : f.level? = some m) (fits : t.Fits m)
    (most : ∀ n, (f.close t).Fits n → n ≤ m) : Holds stack (f.close t) s := by
  obtain ⟨u, operand, closes⟩ := h
  refine ⟨u, operand, fun n hn => ?_⟩
  rw [closes n (fits.mono (most n hn)), reduce_close level (most n hn)]

namespace State

variable {s : State} {stack : List Frame} {t : Tree}

theorem step_operator {op : BinaryOperator} (h : Holds stack t s) (wanted : need stack ≤ op.level)
    (fits : t.Fits op.level) : s.step (.operator op) = some ⟨.binary t op :: stack, none⟩ := by
  obtain ⟨u, operand, closes⟩ := h
  have closed := (closes _ fits).trans (reduce_of_need t wanted)
  unfold step
  rw [operand]
  simp only [closed]

theorem step_downto {target : List String} (h : Holds (.index target :: stack) t s)
    (fits : t.Fits .logical) : s.step .downto = some ⟨.range target t :: stack, none⟩ := by
  obtain ⟨u, operand, closes⟩ := h
  have closed := (closes _ fits).trans (reduce_of_need t (Nat.le_refl _))
  unfold step
  rw [operand]
  simp only [closed]

theorem step_closing {f : Frame} {whole : Tree} (h : Holds (f :: stack) t s)
    (fits : t.Fits .logical)
    (brackets : f = .paren ∧ whole = .paren t ∨ (∃ n, f = .index n ∧ whole = .bits n t t) ∨
      ∃ n high, f = .range n high ∧ whole = .bits n high t) :
    s.step .closing = some ⟨stack, some whole⟩ := by
  obtain ⟨u, operand, closes⟩ := h
  unfold step
  rw [operand]
  rcases brackets with ⟨rfl, rfl⟩ | ⟨n, rfl, rfl⟩ | ⟨n, high, rfl, rfl⟩
  · simp only [(closes _ fits).trans (reduce_of_need t (Nat.le_refl _))]
  · simp only [(closes _ fits).trans (reduce_of_need t (Nat.le_refl _))]
  · simp only [(closes _ fits).trans (reduce_of_need t (Nat.le_refl _))]

/-- An expression that fits is read from its lexemes. -/
theorem run_lexemes : ∀ stack : List Frame, t.Fits (need stack) →
    ∃ s, run ⟨stack, none⟩ t.lexemes = some s ∧ Holds stack t s := by
  induction t with
  | name segments => exact fun stack _ => ⟨_, rfl, .taken stack _⟩
  | const c => exact fun stack _ => ⟨_, rfl, .taken stack _⟩
  | binary op left right ihl ihr =>
    intro stack fits
    obtain ⟨wanted, fitsl, fitsr⟩ := fits
    obtain ⟨s, readl, holdsl⟩ := ihl stack (fitsl.mono wanted)
    obtain ⟨s', readr, holdsr⟩ := ihr (.binary left op :: stack) fitsr
    -- the operator closes what is open of the left operand and waits for the right one itself
    refine ⟨s', ?_, holdsr.closed rfl (fitsr.mono op.level.le_tighter) fun n hn => hn.1⟩
    rw [Tree.lexemes, run_append, readl, Option.bind_some, run_cons,
      step_operator holdsl wanted fitsl, Option.bind_some, readr]
  | neg operand ih =>
    intro stack fits
    obtain ⟨wanted, fits⟩ := fits
    obtain ⟨s, read, holds⟩ := ih (.neg :: stack) fits
    refine ⟨s, ?_, holds.closed rfl (fits.mono (by decide)) fun n hn => hn.1⟩
    have step : step ⟨stack, none⟩ (.operator .sub) = some ⟨.neg :: stack, none⟩ := if_pos wanted
    rw [Tree.lexemes, run_cons, step, Option.bind_some, read]
  | not operand ih =>
    intro stack fits
    obtain ⟨wanted, fits⟩ := fits
    obtain ⟨s, read, holds⟩ := ih (.not :: stack) fits
    refine ⟨s, ?_, holds.closed rfl (fits.mono (by decide)) fun n hn => hn.1⟩
    have step : step ⟨stack, none⟩ .not = some ⟨.not :: stack, none⟩ := if_pos wanted
    rw [Tree.lexemes, run_cons, step, Option.bind_some, read]
  | paren inner ih =>
    intro stack fits
    obtain ⟨s, read, holds⟩ := ih (.paren :: stack) fits
    have opened : step ⟨stack, none⟩ .opening = some ⟨.paren :: stack, none⟩ := rfl
    refine ⟨_, ?_, .taken _ _⟩
    rw [Tree.lexemes, List.cons_append, run_cons, opened, Option.bind_some, run_append, read,
      Option.bind_some, run_cons, step_closing holds fits (.inl ⟨rfl, rfl⟩)]
    rfl
  | bits target high low ihh ihl =>
    intro stack fits
    obtain ⟨-, fitsh, fitsl⟩ := fits
    obtain ⟨s, readh, holdsh⟩ := ihh (.index target :: stack) fitsh
    have named : step ⟨stack, none⟩ (.name target) = some ⟨stack, some (.name target)⟩ := rfl
    have opened : step ⟨stack, some (.name target)⟩ .opening =
        some ⟨.index target :: stack, none⟩ := rfl
    refine ⟨_, ?_, .taken _ _⟩
    rw [Tree.lexemes, List.append_assoc, List.cons_append, run_cons, named, Option.bind_some,
      List.cons_append, run_cons, opened, Option.bind_some, run_append, readh, Option.bind_some]
    by_cases single : low = high
    · rw [if_pos single, List.nil_append, run_cons, single,
        step_closing holdsh fitsh (.inr (.inl ⟨target, rfl, rfl⟩))]
      rfl
    · obtain ⟨s', readl, holdsl⟩ := ihl (.range target high :: stack) fitsl
      rw [if_neg single, List.cons_append, run_cons, step_downto holdsh fitsh, Option.bind_some,
        run_append, readl, Option.bind_some, run_cons,
        step_closing holdsl fitsl (.inr (.inr ⟨target, high, rfl, rfl⟩))]
      rfl

end State

/-- A whole expression that fits is read back from its lexemes. -/
theorem readLexemes?_lexemes {t : Tree} (fits : t.Fits .logical) :
    readLexemes? t.lexemes = some t := by
  obtain ⟨s, read, u, operand, closes⟩ := State.run_lexemes [] fits
  have closed := (closes _ fits).trans (reduce_of_need t (Nat.le_refl _))
  rw [readLexemes?, read, Option.bind_some, State.result?, operand]
  simp only [closed]

end CircuitCompiler.Vhdl
