import CircuitCompiler.Proofs.Cuts
import CircuitCompiler.Proofs.Relocation

/-!
# Two readings side by side

A step of the grammar that succeeds looks at no more than the tokens it takes and the one behind
them. So it succeeds again, with the same result in other places, on any reading that starts with
the same tokens in other places: what follows may differ, and so may how it ends.

`Tracks` says this of a step and a second step that runs in the other places. What makes it an
induction is fuel: loops are bounded by the number of tokens left, which differs between the two
readings. So `Tracks` counts: the second step must manage only if the first takes fewer than `n`
tokens, and the first is known to take `k` at least.

* `Tracks.bind` and the rules for the single steps are all that the grammar is made of;
* `Tracks.fueled` is the rule for a loop that is bounded by the tokens left;
* along the way `Reading.Passes` records how the taken tokens change the number of open braces.
-/

namespace CircuitCompiler

/-! ## Kinds and scopes -/

theorem Kind.inScope_eq_self {k : Kind} (scope : Scope) (h : k.isScoped = false) :
    k.inScope scope = k := by
  unfold inScope
  split <;> first | rfl | simp [isScoped] at h

theorem Kind.isScoped_inScope (k : Kind) (scope : Scope) :
    (k.inScope scope).isScoped = k.isScoped := by
  unfold inScope
  split
  · split <;> rfl
  · split <;> rfl
  · split <;> rfl
  · split <;> rfl
  · rfl

theorem Kind.eq_of_inScope_eq {k κ : Kind} {scope : Scope} (h : k.inScope scope = κ)
    (plain : κ.isScoped = false) : k = κ := by
  have both := k.isScoped_inScope scope
  rw [h, plain] at both
  rw [← h, inScope_eq_self scope both.symm]

theorem Kind.isBrace_inScope (k : Kind) (scope : Scope) :
    (k.inScope scope).isBrace = k.isBrace := by
  unfold inScope
  split
  · split <;> rfl
  · split <;> rfl
  · split <;> rfl
  · split <;> rfl
  · rfl

/-! ## Passing over tokens -/

/-- The reading `r'` is behind the tokens `used` of `r`, which lead from `i` open braces to `j`. -/
structure Reading.Passes (i j : Nat) (used : List Token) (r r' : Reading) : Prop where
  tokens : r.tokens = used ++ r'.tokens
  stop : r'.stop = r.stop
  scope : r'.scope = r.scope
  source? : r'.source? = r.source?
  shifts : Chunk.Shifts i j used

namespace Reading

theorem Passes.refl (i : Nat) (r : Reading) : r.Passes i i [] r :=
  ⟨rfl, rfl, rfl, rfl, .nil i⟩

theorem Passes.trans {i j k : Nat} {used used' : List Token} {r r' r'' : Reading}
    (h : r.Passes i j used r') (h' : r'.Passes j k used' r'') :
    r.Passes i k (used ++ used') r'' where
  tokens := by rw [h.tokens, h'.tokens, List.append_assoc]
  stop := h'.stop.trans h.stop
  scope := h'.scope.trans h.scope
  source? := h'.source?.trans h.source?
  shifts := h.shifts.append h'.shifts

theorem current_of_tokens {r : Reading} {t : Token} {rest : List Token}
    (h : r.tokens = t :: rest) : r.current = t.inScope r.scope := by
  rw [current, h]
  rfl

end Reading

/-- A change of scope makes no brace and removes none. -/
theorem Reading.isBrace_current (r : Reading) (scope : Scope) :
    ({ r with scope } : Reading).current.kind.isBrace = r.current.kind.isBrace := by
  simp only [current, Token.inScope, Kind.isBrace_inScope]

/-- Only the end of the tokens is read as an end or a fault. -/
theorem Reading.tokens_ne_nil {r : Reading} {κ : Kind} (h : r.current.kind = κ)
    (more : κ ≠ .eof) (valid : κ ≠ .invalid) : r.tokens ≠ [] := by
  intro none
  subst h
  rw [current, none] at more valid
  cases hs : r.stop with
  | eof span =>
    rw [hs] at more
    exact more rfl
  | fault e =>
    rw [hs] at valid
    exact valid rfl

/-- A kind of which a choice knows something is that of a token. -/
theorem Reading.tokens_of_some {α : Type} {choice : Kind → Option α} {r : Reading} {a : α}
    (found : choice r.current.kind = some a) (eof : choice .eof = none)
    (invalid : choice .invalid = none) : r.tokens ≠ [] := by
  refine tokens_ne_nil rfl ?_ ?_
  · intro ends
    rw [ends, eof] at found
    cases found
  · intro broken
    rw [broken, invalid] at found
    cases found

/-- The token that comes next in another place is the next token in its other place, as long as
there is one. -/
theorem Relocation.reading_current (m : Relocation) {r : Reading} {used : List Token} {t : Token}
    {rest : List Token} (h : r.tokens = used ++ t :: rest) (rest' : List Token) (stop : Stop) :
    (m.reading r (used.map m.token ++ m.token t :: rest') stop).current = m.token r.current := by
  cases used with
  | nil =>
    rw [Reading.current_of_tokens h]
    rfl
  | cons u used =>
    rw [Reading.current_of_tokens h]
    rfl

namespace Parse

/-! ## Tracking -/

variable {α β α' β' : Type}

/-- From the reading `r` on, where `p` succeeds, `q` succeeds in the places of `m` with the result
that `view` makes, whatever comes behind the token that `p` stops at. The second step need only
manage fewer than `n` tokens, the first takes `k` at least, and they lead from `i` open braces to
`j`. -/
def Tracks (m : Relocation) (n k i j : Nat) (view : α → α') (p : Parse α) (q : Parse α')
    (r : Reading) : Prop :=
  r.source? = m.source? → ∀ a r', p r = (.ok a, r') →
    ∃ used, r.Passes i j used r' ∧ ∀ t rest, r'.tokens = t :: rest →
      k ≤ used.length ∧ (used.length < n → ∀ rest' stop,
        q (m.reading r (used.map m.token ++ m.token t :: rest') stop) =
          (.ok (view a), m.reading r' (m.token t :: rest') stop))

variable {m : Relocation} {n k i j : Nat} {r : Reading}

theorem andThen_ok {p : Parse α} {f : α → Parse β} {b : β} {r r' : Reading}
    (h : (p >>= f) r = (.ok b, r')) : ∃ a r₁, p r = (.ok a, r₁) ∧ f a r₁ = (.ok b, r') := by
  change (andThen p f) r = _ at h
  unfold andThen at h
  split at h
  · next a r₁ hp => exact ⟨a, r₁, hp, h⟩
  · cases h

theorem andThen_eq {p : Parse α} {f : α → Parse β} {a : α} {r r₁ : Reading}
    (h : p r = (.ok a, r₁)) : (p >>= f) r = f a r₁ := by
  change (andThen p f) r = _
  simp only [andThen, h]

/-- Where `p` succeeds from `r` on, the result and the reading behind it are as `post` says. -/
def Ensures (post : α → Reading → Prop) (p : Parse α) (r : Reading) : Prop :=
  ∀ a r', p r = (.ok a, r') → post a r'

namespace Ensures

variable {post : β → Reading → Prop}

theorem bind {p : Parse α} {f : α → Parse β}
    (h : ∀ a r', p r = (.ok a, r') → Ensures post (f a) r') : Ensures post (p >>= f) r := by
  intro b r' hb
  obtain ⟨a, r₁, hp, hf⟩ := andThen_ok hb
  exact h a r₁ hp b r' hf

theorem look {f : Token → Parse β} (h : Ensures post (f r.current) r) :
    Ensures post (peek >>= f) r := h

theorem succeed {b : β} (h : post b r) : Ensures post (Parse.succeed b) r := by
  intro b r' hb
  cases hb
  exact h

theorem fail (cause : Cause) (span : Span) : Ensures post (Parse.fail cause span) r :=
  fun _ _ h => by cases h

theorem unexpected (wanted : Wanted) : Ensures post (Parse.unexpected wanted) r := by
  intro b r' h
  unfold Parse.unexpected failHere at h
  split at h <;> cases h

end Ensures

namespace Tracks

/-- Fewer tokens to manage, and less known of how many are taken. -/
theorem mono {n' k' : Nat} {view : α → α'} {p : Parse α} {q : Parse α'}
    (h : Tracks m n k i j view p q r) (hn : n' ≤ n) (hk : k' ≤ k) :
    Tracks m n' k' i j view p q r := by
  intro source a r' hp
  obtain ⟨used, passes, more⟩ := h source a r' hp
  refine ⟨used, passes, fun t rest ht => ?_⟩
  obtain ⟨least, runs⟩ := more t rest ht
  exact ⟨Nat.le_trans hk least, fun most => runs (Nat.lt_of_lt_of_le most hn)⟩

/-- Where the second step need not manage anything, it may be anything. -/
theorem of_zero {view : α → α'} {p : Parse α} {q q' : Parse α'}
    (h : Tracks m 0 k i j view p q r) : Tracks m 0 k i j view p q' r := by
  intro source a r' hp
  obtain ⟨used, passes, more⟩ := h source a r' hp
  refine ⟨used, passes, fun t rest ht => ⟨(more t rest ht).1, fun most => ?_⟩⟩
  exact absurd most (Nat.not_lt_zero _)

/-- A step that never succeeds. -/
theorem never {view : α → α'} {p : Parse α} {q : Parse α'}
    (h : ∀ a r', p r ≠ (.ok a, r')) : Tracks m n k i j view p q r :=
  fun _ a r' hp => absurd hp (h a r')

theorem fail {view : α → α'} {q : Parse α'} (cause : Cause) (span : Span) :
    Tracks m n k i j view (Parse.fail cause span) q r :=
  never fun _ _ h => by cases h

theorem failHere {view : α → α'} {q : Parse α'} (cause : Reading → Token → CompileError) :
    Tracks m n k i j view (Parse.failHere cause) q r := by
  refine never fun a r' h => ?_
  unfold Parse.failHere at h
  split at h <;> cases h

theorem unexpected {view : α → α'} {q : Parse α'} (wanted : Wanted) :
    Tracks m n k i j view (Parse.unexpected wanted) q r := failHere _

theorem succeed {view : α → α'} {a : α} {a' : α'} (h : view a = a') :
    Tracks m n 0 i i view (Parse.succeed a) (Parse.succeed a') r := by
  intro _ b r' hp
  cases hp
  exact ⟨[], .refl i r, fun t rest ht => ⟨Nat.le_refl _, fun _ rest' stop => by rw [← h]; rfl⟩⟩

/-- One step after another: the second has what the first leaves of the tokens to manage. -/
theorem bind {j' k' : Nat} {view : α → α'} {view' : β → β'} {p : Parse α} {q : Parse α'}
    {f : α → Parse β} {g : α' → Parse β'} (first : Tracks m n k i j view p q r)
    (second : ∀ a r', p r = (.ok a, r') →
      Tracks m (n - k) (k' - k) j j' view' (f a) (g (view a)) r') :
    Tracks m n k' i j' view' (p >>= f) (q >>= g) r := by
  intro source b r'' hb
  obtain ⟨a, r', hp, hf⟩ := andThen_ok hb
  obtain ⟨used, passes, more⟩ := first source a r' hp
  obtain ⟨used', passes', more'⟩ := second a r' hp (passes.source?.trans source) b r'' hf
  refine ⟨used ++ used', passes.trans passes', fun t rest ht => ?_⟩
  obtain ⟨least', runs'⟩ := more' t rest ht
  -- the first step stops at the first token of the second, or at the one behind both
  obtain ⟨u, us, hu⟩ : ∃ u us, used' ++ [t] = u :: us := by
    cases used' with
    | nil => exact ⟨t, [], rfl⟩
    | cons u us => exact ⟨u, us ++ [t], rfl⟩
  have front : ∀ xs, used' ++ t :: xs = u :: (us ++ xs) := fun xs => by
    rw [List.append_cons, hu, List.cons_append]
  obtain ⟨least, runs⟩ := more u (us ++ rest) (by rw [passes'.tokens, ht, front])
  refine ⟨by rw [List.length_append]; omega, fun most rest' stop => ?_⟩
  rw [List.length_append] at most
  have moved : used'.map m.token ++ m.token t :: rest' =
      m.token u :: (us.map m.token ++ rest') := by
    have := congrArg (List.map m.token) hu
    rw [List.map_append, List.map_singleton, List.map_cons] at this
    rw [List.append_cons, this, List.cons_append]
  rw [List.map_append, List.append_assoc, moved, andThen_eq (runs (by omega) _ stop), ← moved]
  exact runs' (by omega) rest' stop

/-! ## Single steps -/

/-- A step that looks at the next token only. -/
theorem look {view : β → β'} {f : Token → Parse β} {g : Token → Parse β'}
    (h : Tracks m n k i j view (f r.current) (g (m.token r.current)) r) :
    Tracks m n k i j view (peek >>= f) (peek >>= g) r := by
  intro source b r' hb
  obtain ⟨used, passes, more⟩ := h source b r' hb
  refine ⟨used, passes, fun t rest ht => ?_⟩
  obtain ⟨least, runs⟩ := more t rest ht
  refine ⟨least, fun most rest' stop => ?_⟩
  rw [← runs most rest' stop, ← m.reading_current (by rw [passes.tokens, ht]) rest' stop]
  rfl

theorem isAt {view : β → β'} {κ : Kind} {f : Bool → Parse β} {g : Bool → Parse β'}
    (h : Tracks m n k i j view (f (r.current.kind == κ)) (g (r.current.kind == κ)) r) :
    Tracks m n k i j view (Parse.isAt κ >>= f) (Parse.isAt κ >>= g) r :=
  look (f := fun t => f (t.kind == κ)) (g := fun t => g (t.kind == κ)) h

/-- A choice by a condition on which both sides agree. -/
theorem ite {c : Prop} [Decidable c] {view : β → β'} {yes no : Parse β} {yes' no' : Parse β'}
    (hy : c → Tracks m n k i j view yes yes' r) (hn : Tracks m n k i j view no no' r) :
    Tracks m n k i j view (if c then yes else no) (if c then yes' else no') r := by
  by_cases h : c
  · rw [if_pos h, if_pos h]
    exact hy h
  · rw [if_neg h, if_neg h]
    exact hn

/-- A choice by the kind of the next token. -/
theorem ifAt {view : β → β'} {κ : Kind} {yes no : Parse β} {yes' no' : Parse β'}
    (hy : r.current.kind = κ → Tracks m n k i j view yes yes' r)
    (hn : Tracks m n k i j view no no' r) :
    Tracks m n k i j view (Parse.isAt κ >>= fun b => if b = true then yes else no)
      (Parse.isAt κ >>= fun b => if b = true then yes' else no') r :=
  isAt (ite (fun h => hy (eq_of_beq h)) hn)

theorem lastSpan {view : β → β'} {f : Span → Parse β} {g : Span → Parse β'}
    (h : Tracks m n k i j view (f r.last) (g (m.span r.last)) r) :
    Tracks m n k i j view (Parse.lastSpan >>= f) (Parse.lastSpan >>= g) r := h

theorem currentScope {view : β → β'} {f : Scope → Parse β} {g : Scope → Parse β'}
    (h : Tracks m n k i j view (f r.scope) (g r.scope) r) :
    Tracks m n k i j view (Parse.currentScope >>= f) (Parse.currentScope >>= g) r := h

theorem isVector {view : β → β'} {name : String} {f : Bool → Parse β} {g : Bool → Parse β'}
    (h : Tracks m n k i j view (f (r.widths.has name)) (g (r.widths.has name)) r) :
    Tracks m n k i j view (Parse.isVector name >>= f) (Parse.isVector name >>= g) r := h

/-- Taking the next token, with what it does to the braces. -/
theorem taken (shifts : ∀ t : Token, t.inScope r.scope = r.current → Chunk.Shifts i j [t])
    (more : r.tokens ≠ []) : Tracks m n 1 i j m.token advance advance r := by
  intro _ a r' hp
  cases ht : r.tokens with
  | nil => exact absurd ht more
  | cons t rest =>
    simp only [advance, ht] at hp
    cases hp
    refine ⟨[t], ⟨ht, rfl, rfl, rfl, shifts t (Reading.current_of_tokens ht).symm⟩, ?_⟩
    intro u rest' hu
    refine ⟨Nat.le_refl _, fun _ rest'' stop => ?_⟩
    have split : r.tokens = [t] ++ u :: rest' := by rw [ht, ← hu]; rfl
    have now := m.reading_current split rest'' stop
    rw [← now]
    rfl

/-- Taking a token that is no brace; at the end nothing is taken. -/
theorem advance (flat : r.current.kind.isBrace = false) :
    Tracks m n 1 i i m.token Parse.advance Parse.advance r := by
  by_cases more : r.tokens = []
  · intro _ a r' hp
    simp only [Parse.advance, more] at hp
    cases hp
    exact ⟨[], .refl i r, fun t rest ht => by rw [more] at ht; cases ht⟩
  · refine taken (fun t ht => .of_flat i ?_) more
    rw [← ht] at flat
    exact (t.kind.isBrace_inScope r.scope).symm.trans flat

theorem advance_open (h : r.current.kind = .symbol .lbrace) :
    Tracks m n 1 i (i + 1) m.token Parse.advance Parse.advance r := by
  refine taken (fun t ht => .of_open i ?_) (Reading.tokens_ne_nil h (by simp) (by simp))
  rw [← ht] at h
  exact Kind.eq_of_inScope_eq h rfl

theorem advance_close (h : r.current.kind = .symbol .rbrace) :
    Tracks m n 1 (i + 1) i m.token Parse.advance Parse.advance r := by
  refine taken (fun t ht => .of_close i ?_) (Reading.tokens_ne_nil h (by simp) (by simp))
  rw [← ht] at h
  exact Kind.eq_of_inScope_eq h rfl

/-- Taking a token of a kind, if taking it is tracked. -/
theorem expected {κ : Kind} {wanted : Wanted}
    (h : r.current.kind = κ → Tracks m n 1 i j m.token Parse.advance Parse.advance r) :
    Tracks m n 1 i j m.token (Parse.expect κ wanted) (Parse.expect κ wanted) r := by
  by_cases hk : r.current.kind = κ
  · intro source a r' hp
    simp only [Parse.expect, hk, if_true] at hp
    obtain ⟨used, passes, more⟩ := h hk source a r' hp
    refine ⟨used, passes, fun t rest ht => ?_⟩
    obtain ⟨least, runs⟩ := more t rest ht
    refine ⟨least, fun most rest' stop => ?_⟩
    rw [← runs most rest' stop, Parse.expect,
      m.reading_current (by rw [passes.tokens, ht]) rest' stop, m.token_kind, if_pos hk]
  · refine never fun a r' hp => ?_
    simp only [Parse.expect, hk, if_false, Parse.unexpected, Parse.failHere] at hp
    split at hp <;> cases hp

theorem expect {κ : Kind} {wanted : Wanted} (flat : κ.isBrace = false) :
    Tracks m n 1 i i m.token (Parse.expect κ wanted) (Parse.expect κ wanted) r :=
  expected fun h => advance (h ▸ flat)

theorem expect_open {wanted : Wanted} :
    Tracks m n 1 i (i + 1) m.token (Parse.expect (.symbol .lbrace) wanted)
      (Parse.expect (.symbol .lbrace) wanted) r :=
  expected advance_open

/-- A step that takes no token. -/
theorem still {view : α → α'} {p : Parse α} {q : Parse α'}
    (h : ∀ a r', p r = (.ok a, r') → (∃ last widths names,
      r' = { r with last, widths, names }) ∧ (r.source? = m.source? → ∀ tokens stop,
        q (m.reading r tokens stop) = (.ok (view a), m.reading r' tokens stop))) :
    Tracks m n 0 i i view p q r := by
  intro source a r' hp
  obtain ⟨⟨last, widths, names, rfl⟩, runs⟩ := h a r' hp
  refine ⟨[], ⟨rfl, rfl, rfl, rfl, .nil i⟩, fun t rest ht => ⟨Nat.le_refl _, ?_⟩⟩
  exact fun _ rest' stop => runs source _ stop

theorem declare {name : String} {span : Span} :
    Tracks m n 0 i i id (Parse.declare name span) (Parse.declare name (m.span span)) r := by
  refine still fun a r' hp => ?_
  cases found : r.names.lookup name with
  | some first =>
    simp only [Parse.declare, found] at hp
    cases hp
  | none =>
    simp only [Parse.declare, found] at hp
    cases hp
    refine ⟨⟨_, _, _, rfl⟩, fun _ tokens stop => ?_⟩
    simp [Parse.declare, Relocation.reading, m.lookup_named, found, Relocation.named]

theorem declareWidth {name : String} {width : Width} :
    Tracks m n 0 i i id (Parse.declareWidth name width) (Parse.declareWidth name width) r := by
  refine still fun a r' hp => ?_
  cases hp
  exact ⟨⟨_, _, _, rfl⟩, fun _ _ _ => rfl⟩

/-- The text between two places. -/
theorem sourceBetween {s t : Span} :
    Tracks m n 0 i i m.body (Parse.sourceBetween s.stop t.start)
      (Parse.sourceBetween (m.span s).stop (m.span t).start) r := by
  refine still fun a r' hp => ?_
  cases hp
  refine ⟨⟨_, _, _, rfl⟩, fun source _ _ => ?_⟩
  rw [source, ← m.between]
  rfl

theorem withScope {view : α → α'} {scope : Scope} {p : Parse α} {q : Parse α'}
    (h : Tracks m n k i j view p q { r with scope }) :
    Tracks m n k i j view (Parse.withScope scope p) (Parse.withScope scope q) r := by
  intro source a r' hp
  unfold Parse.withScope at hp
  cases hr : p { r with scope } with
  | mk result r₁ =>
    rw [hr] at hp
    cases hp
    obtain ⟨used, passes, more⟩ := h source a r₁ hr
    refine ⟨used, ⟨passes.tokens, passes.stop, rfl, passes.source?, passes.shifts⟩, ?_⟩
    intro t rest ht
    obtain ⟨least, runs⟩ := more t rest ht
    refine ⟨least, fun most rest' stop => ?_⟩
    have run := runs most rest' stop
    simp only [Parse.withScope]
    change q { m.reading r _ stop with scope } = _ at run
    rw [run]
    rfl

/-! ## Loops -/

/-- A bounded loop on the other side: where its bound is spent nothing is left to manage. -/
theorem ofFuel {view : α → α'} {p : Parse α} (q : Nat → Parse α') {fuel : Nat} (bound : n ≤ fuel)
    (h : ∀ less, n ≤ less + 1 → Tracks m n k i j view p (q (less + 1)) r) :
    Tracks m n k i j view p (q fuel) r := by
  cases fuel with
  | zero =>
    obtain rfl : n = 0 := Nat.le_zero.mp bound
    exact (h 0 (Nat.zero_le 1)).of_zero
  | succ less => exact h less bound

/-- A loop that is bounded by the tokens left: it is enough to track it for every bound that the
tokens taken stay below. -/
theorem fueled {view : α → α'} (p : Nat → Parse α) (q : Nat → Parse α')
    (h : ∀ fuel n', n' ≤ n → n' ≤ fuel →
      Tracks m n' k i j view (p (r.tokens.length + 1)) (q fuel) r) :
    Tracks m n k i j view (remaining >>= fun x => p (x + 1)) (remaining >>= fun x => q (x + 1))
      r := by
  intro source a r' hp
  obtain ⟨used, passes, more⟩ := h 0 0 (Nat.zero_le n) (Nat.le_refl 0) source a r' hp
  refine ⟨used, passes, fun t rest ht => ⟨(more t rest ht).1, fun most rest' stop => ?_⟩⟩
  -- the second reading has all tokens that are taken and one more, so its bound is high enough
  have bound : used.length + 1 ≤ (used.map m.token ++ m.token t :: rest').length + 1 := by
    rw [List.length_append, List.length_map]
    omega
  obtain ⟨used', passes', more'⟩ := h _ (used.length + 1) most bound source a r' hp
  obtain rfl : used' = used := List.append_cancel_right (passes'.tokens.symm.trans passes.tokens)
  exact (more' t rest ht).2 (Nat.lt_succ_self _) rest' stop

/-- A repeated step; its results so far are seen in their new places. -/
theorem untilAt {view : α → α'} {close : Kind} {step : List α → Parse α}
    {step' : List α' → Parse α'}
    (h : ∀ n' ≤ n, ∀ done r, Tracks m n' 1 i i view (step done) (step' (done.map view)) r)
    (fuel fuel' n' : Nat) (less : n' ≤ n) (bound : n' ≤ fuel') (done : List α) (r : Reading) :
    Tracks m n' 0 i i (List.map view) (Parse.untilAt close step fuel done)
      (Parse.untilAt close step' fuel' (done.map view)) r := by
  -- on the fuel of the first loop; that of the second only has to last for the tokens to manage
  induction fuel generalizing n' fuel' done r with
  | zero => exact .fail _ _
  | succ fuel ih =>
    refine .ofFuel (Parse.untilAt close step' · (done.map view)) bound fun fuel' bound => ?_
    refine .ifAt (fun _ => .succeed rfl) (.bind (h n' less done r) fun a r _ => ?_)
    have again := ih fuel' (n' - 1) (by omega) (by omega) (done ++ [a]) r
    rwa [List.map_append, List.map_singleton] at again

theorem manyUntil {view : α → α'} {close : Kind} {step : List α → Parse α}
    {step' : List α' → Parse α'}
    (h : ∀ n' ≤ n, ∀ done r, Tracks m n' 1 i i view (step done) (step' (done.map view)) r) :
    Tracks m n 0 i i (List.map view) (Parse.manyUntil close step) (Parse.manyUntil close step')
      r :=
  fueled (Parse.untilAt close step · []) (Parse.untilAt close step' · []) fun fuel n' less bound =>
    untilAt h _ fuel n' less bound [] r

end Tracks

/-- A repetition ends at its closing token. -/
theorem untilAt_ensures {close : Kind} {step : List α → Parse α} {fuel : Nat} {done : List α} :
    Ensures (fun _ r' => r'.current.kind = close) (untilAt close step fuel done) r := by
  induction fuel generalizing done r with
  | zero => exact .fail _ _
  | succ fuel ih =>
    refine .bind fun b r₁ hb => ?_
    cases hb
    split
    · next closed => exact .succeed (eq_of_beq closed)
    · exact .bind fun _ _ _ => ih

theorem manyUntil_ensures {close : Kind} {step : List α → Parse α} :
    Ensures (fun _ r' => r'.current.kind = close) (manyUntil close step) r :=
  .bind fun _ _ _ => untilAt_ensures

end Parse
end CircuitCompiler
