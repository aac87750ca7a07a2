import CircuitCompiler.Build.Chunk
import CircuitCompiler.Proofs.Scan
import Mathlib.Data.List.Chain

/-!
# Where a file is cut

Cutting walks over the tokens of a file, and starts again behind bytes that form no token. The cuts
are the first byte and then the places of the words `component` outside braces, as `marks` lists
them.

* `Cutting.walk_eq`: once there is a cut, walking adds the marks;
* `marks_next`: the marks, one after the other;
* `cuts_eq`: the cuts of a file from its stream. Behind a fault, cuts come no earlier than where the
  fault ends;
* `split_tiles`: the chunks lie one behind the other and fill the file.
-/

namespace CircuitCompiler

/-- Whether a kind is a brace. -/
def Kind.isBrace (k : Kind) : Bool := k == .symbol .lbrace || k == .symbol .rbrace

namespace Chunk

/-! ## Marks -/

/-- Where tokens are cut below some open braces. -/
def marks : Nat → List Token → List Cut
  | _, [] => []
  | depth, t :: rest =>
    match t.kind with
    | .symbol .lbrace => marks (depth + 1) rest
    | .symbol .rbrace => marks (depth - 1) rest
    | .keyword .component =>
      if depth = 0 then ⟨t.span.start, Cutting.nameIn rest⟩ :: marks 0 rest else marks depth rest
    | _ => marks depth rest

theorem marks_open {t : Token} (h : t.kind = .symbol .lbrace) (depth : Nat) (rest : List Token) :
    marks depth (t :: rest) = marks (depth + 1) rest := by
  simp only [marks, h]

theorem marks_close {t : Token} (h : t.kind = .symbol .rbrace) (depth : Nat) (rest : List Token) :
    marks depth (t :: rest) = marks (depth - 1) rest := by
  simp only [marks, h]

theorem marks_word {t : Token} (h : t.kind = .keyword .component) (rest : List Token) :
    marks 0 (t :: rest) = ⟨t.span.start, Cutting.nameIn rest⟩ :: marks 0 rest := by
  simp only [marks, h, if_true]

/-- All else is passed over, and so is the word inside braces. -/
theorem marks_other {t : Token} {depth : Nat} (lbrace : t.kind ≠ .symbol .lbrace)
    (rbrace : t.kind ≠ .symbol .rbrace) (word : t.kind = .keyword .component → depth ≠ 0)
    (rest : List Token) : marks depth (t :: rest) = marks depth rest := by
  rw [marks]
  split
  · next h => exact absurd h lbrace
  · next h => exact absurd h rbrace
  · next h => rw [if_neg (word h)]
  · rfl

namespace Cutting

theorem begun_of_cuts (depth : Nat) {cuts : List Cut} (h : cuts ≠ []) :
    (⟨depth, cuts⟩ : Cutting).begun = ⟨depth, cuts⟩ := by
  unfold begun
  rw [if_neg (by simpa using h)]

/-- Once there is a cut, walking adds the marks. -/
theorem cuts_walk (depth : Nat) {cuts : List Cut} (h : cuts ≠ []) (ts : List Token) :
    (walk ⟨depth, cuts⟩ ts).cuts = cuts ++ marks depth ts := by
  induction ts generalizing depth cuts with
  | nil => simp [walk, marks]
  | cons t rest ih =>
    rw [walk]
    split
    · next lbrace => rw [begun_of_cuts _ h, marks_open lbrace, ih _ h]
    · next rbrace => rw [begun_of_cuts _ h, marks_close rbrace, ih _ h]
    · next word =>
      split
      · next top =>
        simp only at top
        subst top
        simp only [cut, marks_word word]
        rw [ih _ (by simp)]
        simp [h]
      · next inside =>
        rw [begun_of_cuts _ h, marks_other (by simp [word]) (by simp [word]) fun _ => inside,
          ih _ h]
    · next lbrace rbrace word =>
      rw [begun_of_cuts _ h, marks_other lbrace rbrace fun h => absurd h word, ih _ h]

/-- The first token makes the first cut, at the start of the file. -/
theorem walk_first (t : Token) (rest : List Token) :
    ∃ depth name, walk {} (t :: rest) = walk ⟨depth, [⟨0, name⟩]⟩ rest ∧
      (t.kind = .keyword .component → depth = 0 ∧ name = nameIn rest) := by
  rw [walk]
  split
  · next h => exact ⟨1, "", rfl, fun h' => by rw [h] at h'; cases h'⟩
  · next h => exact ⟨0, "", rfl, fun h' => by rw [h] at h'; cases h'⟩
  · exact ⟨0, nameIn rest, rfl, fun _ => ⟨rfl, rfl⟩⟩
  · next other => exact ⟨0, "", rfl, fun h => (other h).elim⟩

end Cutting

/-- The first mark is a word `component`, and the others follow it. -/
theorem marks_next (depth : Nat) (ts : List Token) :
    marks depth ts = [] ∨ ∃ before t rest, ts = before ++ t :: rest ∧
      t.kind = .keyword .component ∧
      marks depth ts = ⟨t.span.start, Cutting.nameIn rest⟩ :: marks 0 rest := by
  induction ts generalizing depth with
  | nil => exact .inl rfl
  | cons t rest ih =>
    -- a token that is passed over only changes the depth
    have further : ∀ d, marks depth (t :: rest) = marks d rest →
        marks depth (t :: rest) = [] ∨ ∃ before u rest', t :: rest = before ++ u :: rest' ∧
          u.kind = .keyword .component ∧
          marks depth (t :: rest) = ⟨u.span.start, Cutting.nameIn rest'⟩ :: marks 0 rest' := by
      intro d same
      rw [same]
      rcases ih d with none | ⟨before, u, rest', rfl, word, found⟩
      · exact .inl none
      · exact .inr ⟨t :: before, u, rest', rfl, word, found⟩
    by_cases word : t.kind = .keyword .component ∧ depth = 0
    · obtain ⟨word, rfl⟩ := word
      exact .inr ⟨[], t, rest, rfl, word, marks_word word rest⟩
    · by_cases lbrace : t.kind = .symbol .lbrace
      · exact further _ (marks_open lbrace depth rest)
      · by_cases rbrace : t.kind = .symbol .rbrace
        · exact further _ (marks_close rbrace depth rest)
        · exact further _ (marks_other lbrace rbrace (fun h top => word ⟨h, top⟩) rest)

/-- Marks lie where tokens start. -/
theorem marks_starts (depth : Nat) (ts : List Token) :
    ((marks depth ts).map (·.start)).Sublist (ts.map (·.span.start)) := by
  induction ts generalizing depth with
  | nil => exact List.Sublist.refl _
  | cons t rest ih =>
    rw [marks]
    split
    · exact (ih _).cons _
    · exact (ih _).cons _
    · split
      · exact (ih _).cons_cons _
      · exact (ih _).cons _
    · exact (ih _).cons _

/-! ## Cuts in ascending order -/

/-- Cuts one behind the other, between two places. -/
structure Ascend (low high : Nat) (cuts : List Cut) : Prop where
  sorted : cuts.Pairwise fun c d => c.start < d.start
  within : ∀ c ∈ cuts, low ≤ c.start ∧ c.start < high

namespace Ascend

theorem nil (low high : Nat) : Ascend low high [] := ⟨.nil, by simp⟩

theorem append {low mid high : Nat} {cs ds : List Cut} (h : Ascend low mid cs)
    (h' : Ascend mid high ds) (order : low ≤ mid) (order' : mid ≤ high) :
    Ascend low high (cs ++ ds) where
  sorted := by
    refine List.pairwise_append.mpr ⟨h.sorted, h'.sorted, fun c hc d hd => ?_⟩
    have := h.within c hc
    have := h'.within d hd
    omega
  within c hc := by
    rcases List.mem_append.mp hc with hc | hc
    · have := h.within c hc
      omega
    · have := h'.within c hc
      omega

theorem mono {low low' high : Nat} {cs : List Cut} (h : Ascend low high cs) (less : low' ≤ low) :
    Ascend low' high cs :=
  ⟨h.sorted, fun c hc => ⟨Nat.le_trans less (h.within c hc).1, (h.within c hc).2⟩⟩

/-- The marks of tokens that start one behind the other. -/
theorem of_marks {low high depth : Nat} {ts : List Token}
    (sorted : ts.Pairwise fun s t => s.span.start < t.span.start)
    (within : ∀ t ∈ ts, low ≤ t.span.start ∧ t.span.start < high) :
    Ascend low high (marks depth ts) where
  sorted := List.pairwise_map.mp
    ((List.pairwise_map.mpr sorted).sublist (marks_starts depth ts))
  within c hc := by
    have start := (marks_starts depth ts).subset (List.mem_map_of_mem (f := (·.start)) hc)
    obtain ⟨t, ht, same⟩ := List.mem_map.mp start
    rw [← same]
    exact within t ht

end Ascend

/-- The cuts behind a stream: none where the source ends, and none before the end of a fault. -/
def Behind (f : SourceFile) (stop : Stop) (tail : List Cut) : Prop :=
  match stop with
  | .eof _ => tail = []
  | .fault e => Ascend e.span.stop f.content.length tail

/-- The marks of a stream and the cuts behind it ascend. -/
theorem Behind.ascend {f : SourceFile} {pos depth : Nat} {ts : List Token} {stop : Stop}
    {tail : List Cut} (behind : Behind f stop tail) (inside : pos ≤ f.content.length)
    (h : Stream.scan f.id pos (f.content.drop pos) = ⟨ts, stop⟩) {low : Nat} {ts' : List Token}
    (part : ts'.Sublist ts) (from_ : ∀ t ∈ ts', low ≤ t.span.start) (least : low ≤ pos + 1) :
    Ascend low f.content.length (marks depth ts' ++ tail) := by
  have size : pos + (f.content.drop pos).length = f.content.length := by
    rw [List.length_drop]
    omega
  have sorted := Stream.scan_sorted f.id pos (f.content.drop pos)
  have token : ∀ t ∈ ts', t.span.start < f.content.length := fun t ht => by
    obtain ⟨-, upTo, -⟩ := Stream.scan_token (t := t) (by rw [h]; exact part.subset ht)
    omega
  rw [h] at sorted
  cases stop with
  | eof span =>
    obtain rfl : tail = [] := behind
    rw [List.append_nil]
    exact .of_marks (sorted.sublist part) fun t ht => ⟨from_ t ht, token t ht⟩
  | fault e =>
    obtain ⟨start, order, upTo⟩ := Stream.scan_fault (e := e) (by rw [h])
    have before : ∀ t ∈ ts', t.span.start < e.span.stop := fun t ht => by
      have := Stream.scan_token_lt_fault (t := t) (by rw [h]) (by rw [h]; exact part.subset ht)
      omega
    refine Ascend.append (.of_marks (sorted.sublist part) fun t ht => ⟨from_ t ht, before t ht⟩)
      behind ?_ ?_ <;> omega

namespace Cutting

theorem walkFile_eof {f : SourceFile} {pos : Nat} {ts : List Token} {span : Span}
    (h : Stream.scan f.id pos (f.content.drop pos) = ⟨ts, .eof span⟩) (fuel : Nat) (s : Cutting) :
    walkFile f (fuel + 1) pos s = s.walk ts := by
  simp only [walkFile, h]

theorem walkFile_fault {f : SourceFile} {pos : Nat} {ts : List Token} {e : CompileError}
    (h : Stream.scan f.id pos (f.content.drop pos) = ⟨ts, .fault e⟩) (fuel : Nat) (s : Cutting) :
    walkFile f (fuel + 1) pos s =
      if f.content.length ≤ e.span.stop then (s.walk ts).begun
      else walkFile f fuel e.span.stop (s.walk ts).begun := by
  obtain ⟨-, order, -⟩ := Stream.scan_fault (e := e) (by rw [h])
  -- a fault has a byte at least, so walking goes on right behind it
  have resume : max e.span.stop (e.span.start + 1) = e.span.stop := by omega
  simp only [walkFile, h, resume]

/-- From a place on, walking over a file adds cuts from that place on. -/
def Advances (f : SourceFile) (fuel : Nat) : Prop :=
  ∀ (pos depth : Nat) (cuts : List Cut), cuts ≠ [] → pos ≤ f.content.length →
    ∃ later, (walkFile f fuel pos ⟨depth, cuts⟩).cuts = cuts ++ later ∧
      Ascend pos f.content.length later

/-- What is walked over behind a fault adds cuts behind it only. -/
theorem cuts_fault {f : SourceFile} {fuel pos : Nat} (more : Advances f fuel) {ts : List Token}
    {e : CompileError} (h : Stream.scan f.id pos (f.content.drop pos) = ⟨ts, .fault e⟩)
    {s : Cutting} (some : (s.walk ts).begun.cuts ≠ []) :
    ∃ tail, (walkFile f (fuel + 1) pos s).cuts = (s.walk ts).begun.cuts ++ tail ∧
      Behind f (.fault e) tail := by
  rw [walkFile_fault h]
  split
  · exact ⟨[], (List.append_nil _).symm, .nil _ _⟩
  · exact more e.span.stop _ _ some (by omega)

/-- The cuts behind a stream that has been walked over. -/
theorem cuts_stream {f : SourceFile} {fuel pos : Nat} (more : Advances f fuel) {ts : List Token}
    {stop : Stop} (h : Stream.scan f.id pos (f.content.drop pos) = ⟨ts, stop⟩) {s : Cutting}
    (some : (s.walk ts).cuts ≠ []) :
    ∃ tail, (walkFile f (fuel + 1) pos s).cuts = (s.walk ts).cuts ++ tail ∧
      Behind f stop tail := by
  cases stop with
  | eof span => exact ⟨[], by rw [walkFile_eof h, List.append_nil], rfl⟩
  | fault e =>
    have begun := begun_of_cuts (s.walk ts).depth some
    obtain ⟨tail, cuts, behind⟩ := cuts_fault more h (s := s) (by rw [begun]; exact some)
    rw [begun] at cuts
    exact ⟨tail, cuts, behind⟩

theorem advances (f : SourceFile) (fuel : Nat) : Advances f fuel := by
  induction fuel with
  | zero => exact fun pos depth cuts _ _ => ⟨[], by simp [walkFile], .nil _ _⟩
  | succ fuel ih =>
    intro pos depth cuts some inside
    obtain ⟨ts, stop, h⟩ : ∃ ts stop, Stream.scan f.id pos (f.content.drop pos) = ⟨ts, stop⟩ :=
      ⟨_, _, rfl⟩
    -- first the marks up to the fault, then the cuts behind it with less fuel
    have walked := cuts_walk depth some ts
    obtain ⟨tail, cuts, behind⟩ := cuts_stream ih h (s := ⟨depth, cuts⟩) (by simp [walked, some])
    refine ⟨marks depth ts ++ tail, by rw [cuts, walked, List.append_assoc], ?_⟩
    refine behind.ascend inside h (List.Sublist.refl _) (fun t ht => ?_) (Nat.le_succ pos)
    exact (Stream.scan_token (by rw [h]; exact ht)).1

end Cutting

/-! ## The cuts of a file -/

/-- A file without tokens and faults is not cut. -/
theorem cuts_of_eof {f : SourceFile} {span : Span}
    (h : Stream.scan f.id 0 f.content = ⟨[], .eof span⟩) : cuts f = [] := by
  rw [cuts, Cutting.walkFile_eof h]
  rfl

/-- A file that starts with a fault is cut at its start. -/
theorem cuts_of_fault {f : SourceFile} {e : CompileError}
    (h : Stream.scan f.id 0 f.content = ⟨[], .fault e⟩) :
    ∃ tail, cuts f = ⟨0, ""⟩ :: tail ∧ Behind f (.fault e) tail :=
  Cutting.cuts_fault (Cutting.advances f f.content.length) h (s := {}) (by decide)

/-- A file is cut at its start and then at the marks behind its first token. -/
theorem cuts_of_tokens {f : SourceFile} {t : Token} {rest : List Token} {stop : Stop}
    (h : Stream.scan f.id 0 f.content = ⟨t :: rest, stop⟩) :
    ∃ depth name tail, cuts f = ⟨0, name⟩ :: (marks depth rest ++ tail) ∧ Behind f stop tail ∧
      (t.kind = .keyword .component → depth = 0 ∧ name = Cutting.nameIn rest) := by
  obtain ⟨depth, name, first, word⟩ := Cutting.walk_first t rest
  have walked := Cutting.cuts_walk depth (List.cons_ne_nil (⟨0, name⟩ : Cut) []) rest
  have whole : Stream.scan f.id 0 (f.content.drop 0) = ⟨t :: rest, stop⟩ := h
  obtain ⟨tail, cuts, behind⟩ := Cutting.cuts_stream (Cutting.advances f f.content.length)
    whole (s := {}) (by rw [first, walked]; simp)
  rw [first, walked] at cuts
  exact ⟨depth, name, tail, by rw [Chunk.cuts, cuts]; simp, behind, word⟩

/-- The cuts of a file ascend from its start. -/
theorem cuts_ascend {f : SourceFile} {c : Cut} {later : List Cut} (h : cuts f = c :: later) :
    c.start = 0 ∧ 0 < f.content.length ∧ Ascend 1 f.content.length later := by
  obtain ⟨ts, stop, scanned⟩ : ∃ ts stop, Stream.scan f.id 0 f.content = ⟨ts, stop⟩ := ⟨_, _, rfl⟩
  cases ts with
  | nil =>
    cases stop with
    | eof span =>
      rw [cuts_of_eof scanned] at h
      cases h
    | fault e =>
      obtain ⟨tail, found, behind⟩ := cuts_of_fault scanned
      obtain ⟨-, order, upTo⟩ := Stream.scan_fault (e := e) (by rw [scanned])
      rw [found] at h
      cases h
      exact ⟨rfl, by omega, Ascend.mono behind (by omega)⟩
  | cons t rest =>
    obtain ⟨depth, name, tail, found, behind, -⟩ := cuts_of_tokens scanned
    have sorted := Stream.scan_sorted f.id 0 f.content
    obtain ⟨-, upTo, -⟩ := Stream.scan_token (t := t) (by rw [scanned]; simp)
    rw [found] at h
    rw [scanned] at sorted
    cases h
    refine ⟨rfl, by omega, ?_⟩
    refine behind.ascend (Nat.zero_le _) scanned (List.sublist_cons_self t rest) (fun u hu => ?_)
      (Nat.le_refl 1)
    have := (List.pairwise_cons.mp sorted).1 u hu
    omega

/-! ## Tiling -/

theorem head?_between (f : SourceFile) (index : Nat) (c : Cut) (later : List Cut) :
    (between f index (c :: later)).head?.map (·.start) = some c.start := by
  cases later <;> rfl

/-- Between cuts that ascend, chunks that are not empty lie one behind the other up to the end of
the file. -/
theorem between_tiles (f : SourceFile) (index : Nat) (c : Cut) (later : List Cut)
    (inside : c.start < f.content.length)
    (ascend : Ascend (c.start + 1) f.content.length later) :
    (between f index (c :: later)).IsChain (fun a b => a.stop = b.start) ∧
      (between f index (c :: later)).getLast?.map (·.stop) = some f.content.length ∧
      ∀ x ∈ between f index (c :: later), x.start < x.stop ∧ x.stop ≤ f.content.length := by
  induction later generalizing index c with
  | nil => exact ⟨.singleton _, rfl, by simpa [between] using inside⟩
  | cons d later ih =>
    have next := ascend.within d List.mem_cons_self
    have rest : Ascend (d.start + 1) f.content.length later :=
      ⟨(List.pairwise_cons.mp ascend.sorted).2, fun e he =>
        ⟨(List.pairwise_cons.mp ascend.sorted).1 e he,
          (ascend.within e (List.mem_cons_of_mem d he)).2⟩⟩
    obtain ⟨chain, last, within⟩ := ih (index + 1) d next.2 rest
    have head := head?_between f (index + 1) d later
    cases hb : between f (index + 1) (d :: later) with
    | nil =>
      rw [hb] at head
      cases head
    | cons x xs =>
      rw [hb] at chain last within head
      simp only [between, hb]
      refine ⟨List.isChain_cons_cons.mpr ⟨?_, chain⟩, ?_, ?_⟩
      · exact (Option.some.inj head).symm
      · rw [List.getLast?_cons_cons]
        exact last
      · intro y hy
        rcases List.mem_cons.mp hy with rfl | hy
        · exact ⟨next.1, by simp only; omega⟩
        · exact within y hy

/-! ## Braces -/

/-- Tokens that lead from `i` open braces to `j`, below a brace that they leave open: there is no
mark among them. -/
def Shifts (i j : Nat) (ts : List Token) : Prop :=
  ∀ (base : Nat) (rest : List Token), marks (base + 1 + i) (ts ++ rest) = marks (base + 1 + j) rest

namespace Shifts

theorem nil (i : Nat) : Shifts i i [] := fun _ _ => rfl

theorem append {i j k : Nat} {ts us : List Token} (h : Shifts i j ts) (h' : Shifts j k us) :
    Shifts i k (ts ++ us) := by
  intro base rest
  rw [List.append_assoc, h, h']

theorem of_flat (i : Nat) {t : Token} (flat : t.kind.isBrace = false) : Shifts i i [t] := by
  intro base rest
  refine marks_other ?_ ?_ (fun _ => by omega) rest
  · intro h
    rw [h] at flat
    cases flat
  · intro h
    rw [h] at flat
    cases flat

theorem of_open (i : Nat) {t : Token} (h : t.kind = .symbol .lbrace) : Shifts i (i + 1) [t] :=
  fun base rest => marks_open h (base + 1 + i) rest

theorem of_close (i : Nat) {t : Token} (h : t.kind = .symbol .rbrace) : Shifts (i + 1) i [t] :=
  fun base rest => marks_close h (base + 1 + (i + 1)) rest

end Shifts

end Chunk
end CircuitCompiler
